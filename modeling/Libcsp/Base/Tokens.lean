import Mathlib.Data.List.TakeWhile
import Mathlib.Tactic.Common

namespace Sys

universe u
variable {α : Type u}

/-- The separators in front of the first token. -/
def gap (sep : α → Bool) (text : List α) : List α := text.takeWhile sep

/-- The first token, empty if there is none. -/
def firstToken (sep : α → Bool) (text : List α) : List α := (text.dropWhile sep).takeWhile (! sep ·)

/-- What follows the separator behind the first token. -/
def afterToken (sep : α → Bool) (text : List α) : List α := ((text.dropWhile sep).dropWhile (! sep ·)).tail

/-- The non-empty maximal runs without a separator. -/
def segments (sep : α → Bool) (text : List α) : List (List α) := (text.splitOnP sep).filter (! List.isEmpty ·)

section
variable {sep : α → Bool} {text : List α} {x : α}

theorem gap_sep (member : x ∈ gap sep text) : sep x = true :=
  List.all_eq_true.mp List.all_takeWhile x member

theorem firstToken_plain (member : x ∈ firstToken sep text) : sep x = false := by
  have all := List.all_eq_true.mp List.all_takeWhile x member
  simpa using all

/-- A text is a gap and a token, which ends the text or is followed by a separator. -/
theorem text_split (sep : α → Bool) (text : List α) :
    afterToken sep text = [] ∧ text = gap sep text ++ firstToken sep text ∨
    ∃ x, sep x = true ∧ text = gap sep text ++ (firstToken sep text ++ x :: afterToken sep text) := by
  have whole : text = gap sep text ++ (firstToken sep text ++ (text.dropWhile sep).dropWhile (! sep ·)) := by
    rw [firstToken, List.takeWhile_append_dropWhile, gap, List.takeWhile_append_dropWhile]
  unfold afterToken
  cases behind : (text.dropWhile sep).dropWhile (! sep ·) with
  | nil => exact Or.inl ⟨rfl, by simpa [behind] using whole⟩
  | cons x rest =>
    have stops := List.head?_dropWhile_not (! sep ·) (text.dropWhile sep)
    simp only [behind, List.head?_cons, Bool.not_eq_eq_eq_not, Bool.not_false] at stops
    exact Or.inr ⟨x, stops, by simpa only [behind, List.tail_cons] using whole⟩

/-- A text without a token is all gap. -/
theorem dropWhile_of_noToken (noToken : firstToken sep text = []) : text.dropWhile sep = [] := by
  cases rest : text.dropWhile sep with
  | nil => rfl
  | cons x more =>
    have stops := List.head?_dropWhile_not sep text
    simp only [rest, List.head?_cons] at stops
    simp [firstToken, rest, stops] at noToken

theorem afterToken_of_noToken (noToken : firstToken sep text = []) : afterToken sep text = [] := by
  rw [afterToken, dropWhile_of_noToken noToken]
  rfl

theorem segments_gap {front : List α} (all : ∀ x ∈ front, sep x = true) :
    segments sep (front ++ text) = segments sep text := by
  induction front with
  | nil => rfl
  | cons x front ih =>
    have first := List.splitOnP_append_cons [] (front ++ text) (all x List.mem_cons_self)
    rw [List.nil_append, List.splitOnP_nil] at first
    rw [← ih fun y member => all y (List.mem_cons_of_mem x member), segments, List.cons_append, first]
    rfl

theorem segments_noToken (noToken : firstToken sep text = []) : segments sep text = [] := by
  have all := List.dropWhile_eq_nil_iff.mp (dropWhile_of_noToken noToken)
  rw [← List.append_nil text, segments_gap all]
  rfl

theorem segments_token (token : firstToken sep text ≠ []) :
    segments sep text = firstToken sep text :: segments sep (afterToken sep text) := by
  have plain : ∀ x ∈ firstToken sep text, sep x = false := fun x => firstToken_plain
  have filled : (! (firstToken sep text).isEmpty) = true := by simpa using token
  rcases text_split sep text with ⟨last, whole⟩ | ⟨x, stops, whole⟩
  · rw [last]
    conv => lhs; rw [whole]
    rw [segments_gap fun x => gap_sep, segments, List.splitOnP_eq_singleton plain]
    simp [filled, segments]
  · conv => lhs; rw [whole]
    rw [segments_gap fun x => gap_sep, segments, List.splitOnP_append_cons_of_forall_mem plain x stops,
      List.filter_cons, if_pos filled]
    rfl

end

/-- A text that is being taken apart: what is left of it, and where that starts. -/
structure Remaining (α : Type u) where
  start : Nat
  text : List α

namespace Remaining

def token (r : Remaining α) (sep : α → Bool) : Option (Nat × List α) :=
  if firstToken sep r.text = [] then none
  else some (r.start + (gap sep r.text).length, firstToken sep r.text)

def next (r : Remaining α) (sep : α → Bool) : Remaining α :=
  ⟨r.start + (r.text.length - (afterToken sep r.text).length), afterToken sep r.text⟩

theorem token_none {r : Remaining α} {sep : α → Bool} (nothing : r.token sep = none) :
    r.next sep = ⟨r.start + r.text.length, []⟩ := by
  have noToken : firstToken sep r.text = [] := by
    by_contra token
    simp [Remaining.token, token] at nothing
  rw [next, afterToken_of_noToken noToken]
  rfl

/-- Where a token stands: at the end of the text, or in front of a separator behind which
the rest of the text starts. -/
theorem token_some {r : Remaining α} {sep : α → Bool} {a : Nat} {word : List α}
    (found : r.token sep = some (a, word)) : word ≠ [] ∧ ∃ front, a = r.start + front.length ∧
      (r.text = front ++ word ∧ r.next sep = ⟨a + word.length, []⟩ ∨
      ∃ x, sep x = true ∧ r.text = front ++ (word ++ x :: (r.next sep).text) ∧
        (r.next sep).start = a + word.length + 1) := by
  unfold token at found
  split at found
  · exact nomatch found
  · rename_i token
    cases found
    refine ⟨token, gap sep r.text, rfl, ?_⟩
    rcases text_split sep r.text with ⟨last, whole⟩ | ⟨x, stops, whole⟩
    · have lengths := congrArg List.length whole
      rw [List.length_append] at lengths
      refine Or.inl ⟨whole, ?_⟩
      simp only [next, last, List.length_nil, mk.injEq, and_true]
      omega
    · have lengths := congrArg List.length whole
      simp only [List.length_append, List.length_cons] at lengths
      refine Or.inr ⟨x, stops, whole, ?_⟩
      simp only [next]
      omega

/-- The tokens found by asking again and again, each time with its own separators. -/
def tokens : Remaining α → List (α → Bool) → List (Option (Nat × List α))
  | _, [] => []
  | r, sep :: seps => r.token sep :: tokens (r.next sep) seps

theorem tokens_length (r : Remaining α) (seps : List (α → Bool)) : (r.tokens seps).length = seps.length := by
  induction seps generalizing r with
  | nil => rfl
  | cons sep seps ih => rw [tokens, List.length_cons, ih, List.length_cons]

theorem tokens_concat (r : Remaining α) (seps : List (α → Bool)) (sep : α → Bool) :
    r.tokens (seps ++ [sep]) = r.tokens seps ++ [(seps.foldl next r).token sep] := by
  induction seps generalizing r with
  | nil => rfl
  | cons first seps ih => rw [List.cons_append, tokens, ih, tokens, List.foldl_cons, List.cons_append]

/-- With the same separators throughout, the tokens are the segments of the text, and
nothing after them. -/
theorem tokens_replicate (r : Remaining α) (sep : α → Bool) (n : Nat) :
    (r.tokens (List.replicate n sep)).map (Option.map Prod.snd) =
      ((segments sep r.text).map some).take n ++ List.replicate (n - (segments sep r.text).length) none := by
  induction n generalizing r with
  | zero => simp [tokens]
  | succ n ih =>
    rw [List.replicate_succ, tokens, List.map_cons, ih]
    by_cases noToken : firstToken sep r.text = []
    · have exhausted : segments sep (r.next sep).text = [] := by
        rw [next, afterToken_of_noToken noToken]
        rfl
      simp [token, noToken, segments_noToken noToken, exhausted, List.replicate_succ]
    · simp [token, noToken, segments_token noToken, next]

end Remaining

end Sys
