import Libcsp.Arch.Strings
import Libcsp.Base.Machine
import Libcsp.Base.Tokens

namespace Libcsp
open Sys

namespace CspArch

/-- The loop over the delimiters: is `c`, the byte at `str`, one of them? -/
def isDelimLoop (mem : Memory) (c : UInt8) : Nat → Nat → Option Bool
  | 0, _ => none
  | fuel + 1, d => do
    let x ← mem d
    if x = 0 then return false
    else if c = x then return true
    else isDelimLoop mem c fuel (d + 1)

/-- Skip leading delimiters. `rounds` bounds the inner loop. -/
def skipLoop (mem : Memory) (delim rounds : Nat) : Nat → Nat → Option Nat
  | 0, _ => none
  | fuel + 1, str => do
    let c ← mem str
    if c = 0 then return str
    else if ← isDelimLoop mem c rounds delim then skipLoop mem delim rounds fuel (str + 1)
    else return str

/-- Find the end of the token. The delimiter there is overwritten. -/
def tokenLoop (mem : Memory) (delim rounds : Nat) : Nat → Nat → Option (Nat × Memory)
  | 0, _ => none
  | fuel + 1, str => do
    let c ← mem str
    if c = 0 then return (str, mem)
    else if ← isDelimLoop mem c rounds delim then
      let mem ← mem.store str 0
      return (str + 1, mem)
    else tokenLoop mem delim rounds fuel (str + 1)

structure StrtokReturn where
  token : Option Nat
  saveptr : Option Nat
  mem : Memory

/-- `strtok_r`; a null pointer is `none`, and what `saveptr` points to is passed and
returned. -/
def strtokR (fuel : Nat) (mem : Memory) (s : Option Nat) (delim : Nat) (saveptr : Option Nat) :
    Option StrtokReturn :=
  match s <|> saveptr with
  | none => some ⟨none, saveptr, mem⟩
  | some str => do
    let str ← skipLoop mem delim fuel fuel str
    let c ← mem str
    if c = 0 then return ⟨none, none, mem⟩
    else
      let (stop, mem) ← tokenLoop mem delim fuel fuel str
      return ⟨some str, some stop, mem⟩

def separates (delims : List UInt8) (c : UInt8) : Bool := decide (c ∈ delims)

theorem isDelimLoop_eq {mem : Memory} {delim fuel : Nat} {delims : List UInt8} (atDelim : HoldsString mem delim delims)
    (enough : delims.length < fuel) (c : UInt8) : isDelimLoop mem c fuel delim = some (separates delims c) := by
  obtain ⟨noNul, held⟩ := atDelim
  induction fuel generalizing delim delims with
  | zero => exact absurd enough (Nat.not_lt_zero _)
  | succ fuel ih =>
    unfold isDelimLoop
    cases delims with
    | nil =>
      have first := (Memory.holds_cons.mp held).1
      simp [first, separates]
    | cons x xs =>
      rw [List.cons_append] at held
      obtain ⟨first, rest⟩ := Memory.holds_cons.mp held
      have nonzero := (List.ne_of_not_mem_cons noNul).symm
      have later := ih (by simpa using enough) (List.not_mem_of_not_mem_cons noNul) rest
      by_cases same : c = x
      · simp [first, nonzero, same, separates]
      · simp [first, nonzero, same, separates, later]

section
variable {mem : Memory} {delim rounds : Nat} {delims : List UInt8} (atDelim : HoldsString mem delim delims)
  (enoughRounds : delims.length < rounds)
include atDelim enoughRounds

theorem skipLoop_eq {p fuel : Nat} {text : List UInt8} (noNul : 0 ∉ text) (held : mem.Holds p (text ++ [0]))
    (enough : text.length < fuel) :
    skipLoop mem delim rounds fuel p = some (p + (gap (separates delims) text).length) := by
  induction fuel generalizing p text with
  | zero => exact absurd enough (Nat.not_lt_zero _)
  | succ fuel ih =>
    unfold skipLoop
    cases text with
    | nil =>
      have first := (Memory.holds_cons.mp held).1
      simp [first, gap]
    | cons x xs =>
      rw [List.cons_append] at held
      obtain ⟨first, rest⟩ := Memory.holds_cons.mp held
      have nonzero := (List.ne_of_not_mem_cons noNul).symm
      have asked := isDelimLoop_eq atDelim enoughRounds x
      have later := ih (List.not_mem_of_not_mem_cons noNul) rest (by simpa using enough)
      cases delimiter : separates delims x with
      | false => simp [first, nonzero, asked, delimiter, gap]
      | true =>
        simp only [first, Option.bind_eq_bind, Option.bind_some, nonzero, if_false, asked, delimiter, if_true, later,
          gap, List.takeWhile_cons_of_pos delimiter, List.length_cons]
        congr 1
        omega

/-- The loop stops behind the delimiter that it overwrites, or at the NUL: there a NUL
could as well have been stored. -/
theorem tokenLoop_eq {p fuel : Nat} {text : List UInt8} (noNul : 0 ∉ text) (held : mem.Holds p (text ++ [0]))
    (enough : text.length < fuel) :
    tokenLoop mem delim rounds fuel p =
      some (p + (text.length - (text.dropWhile (! separates delims ·)).tail.length),
        mem.write (p + (text.takeWhile (! separates delims ·)).length) [0]) := by
  induction fuel generalizing p text with
  | zero => exact absurd enough (Nat.not_lt_zero _)
  | succ fuel ih =>
    unfold tokenLoop
    cases text with
    | nil =>
      have first := (Memory.holds_cons.mp held).1
      simp [first, Memory.write_same first]
    | cons x xs =>
      rw [List.cons_append] at held
      obtain ⟨first, rest⟩ := Memory.holds_cons.mp held
      have nonzero := (List.ne_of_not_mem_cons noNul).symm
      have asked := isDelimLoop_eq atDelim enoughRounds x
      have later := ih (List.not_mem_of_not_mem_cons noNul) rest (by simpa using enough)
      cases delimiter : separates delims x with
      | true =>
        have stored : mem.store p 0 = some (mem.write p [0]) := Memory.store_eq (by rw [first]; rfl)
        simp [first, nonzero, asked, delimiter, stored]
      | false =>
        have kept : (! separates delims x) = true := by rw [delimiter]; rfl
        have shorter : (xs.dropWhile (! separates delims ·)).tail.length ≤ xs.length := by
          rw [List.length_tail]
          exact Nat.le_trans (Nat.sub_le _ _) (List.length_dropWhile_le _ xs)
        rw [List.dropWhile_cons_of_pos (p := (! separates delims ·)) kept,
          List.takeWhile_cons_of_pos (p := (! separates delims ·)) kept]
        simp only [first, Option.bind_eq_bind, Option.bind_some, nonzero, if_false, asked, delimiter,
          Bool.false_eq_true, later, List.length_cons]
        congr 2
        · omega
        · congr 1
          omega

/-- One call, on the text that is left. -/
theorem strtokR_eq {r : Remaining UInt8} {s saveptr : Option Nat} (atText : HoldsString mem r.start r.text)
    (resumes : (s <|> saveptr) = some r.start) (enough : r.text.length < rounds) :
    strtokR rounds mem s delim saveptr =
      some (match r.token (separates delims) with
        | none => ⟨none, none, mem⟩
        | some (a, word) => ⟨some a, some (r.next (separates delims)).start, mem.write (a + word.length) [0]⟩) := by
  obtain ⟨q, text⟩ := r
  dsimp only at atText resumes enough
  obtain ⟨noNul, held⟩ := atText
  have skipped := skipLoop_eq atDelim enoughRounds noNul held enough
  have split : gap (separates delims) text ++ text.dropWhile (separates delims) = text :=
    List.takeWhile_append_dropWhile
  have lengths := congrArg List.length split
  rw [List.length_append] at lengths
  have behind : mem.Holds (q + (gap (separates delims) text).length) (text.dropWhile (separates delims) ++ [0]) := by
    rw [← split, List.append_assoc, Memory.holds_append] at held
    exact held.2
  unfold strtokR Remaining.token Remaining.next
  rw [resumes]
  by_cases noToken : firstToken (separates delims) text = []
  · rw [dropWhile_of_noToken noToken] at behind
    have first := (Memory.holds_cons.mp behind).1
    simp [skipped, first, noToken]
  · have noNulBehind : 0 ∉ text.dropWhile (separates delims) := by
      intro member
      exact noNul ((List.dropWhile_sublist _).subset member)
    have shorter : (afterToken (separates delims) text).length ≤ (text.dropWhile (separates delims)).length := by
      rw [afterToken, List.length_tail]
      exact Nat.le_trans (Nat.sub_le _ _) (List.length_dropWhile_le _ _)
    have place : q + (text.length - (afterToken (separates delims) text).length) =
        q + (gap (separates delims) text).length +
          ((text.dropWhile (separates delims)).length - (afterToken (separates delims) text).length) := by omega
    have found : tokenLoop mem delim rounds rounds (q + (gap (separates delims) text).length) =
        some (q + (text.length - (afterToken (separates delims) text).length),
          mem.write (q + (gap (separates delims) text).length + (firstToken (separates delims) text).length) [0]) := by
      rw [tokenLoop_eq atDelim enoughRounds noNulBehind behind (by omega), place]
      rfl
    obtain ⟨x, more, rest⟩ : ∃ x more, text.dropWhile (separates delims) = x :: more := by
      refine List.exists_cons_of_ne_nil ?_
      intro empty
      exact noToken (by rw [firstToken, empty]; rfl)
    rw [rest] at behind noNulBehind
    have first := (Memory.holds_cons.mp behind).1
    have nonzero := (List.ne_of_not_mem_cons noNulBehind).symm
    simp only [skipped, Option.bind_eq_bind, Option.bind_some, first, nonzero, if_false, found, noToken,
      Option.pure_def]

end

end CspArch

namespace Strtok
open CspArch

/-- A call as its caller sees it: the delimiter string, and the pointer returned. -/
structure Turn where
  delim : Nat
  delims : List UInt8
  token : Option Nat

/-- What the caller passes next, the saved pointer, and memory. -/
structure Tokenizing where
  s : Option Nat
  saveptr : Option Nat
  mem : Memory

/-- A call that returns. The delimiters may be others in every call; they are what the
string holds at that moment. -/
inductive Step : Tokenizing → Turn → Tokenizing → Prop
  | call {s saveptr mem delim delims out} : HoldsString mem delim delims →
      Returns (fun fuel => strtokR fuel mem s delim saveptr) out →
      Step ⟨s, saveptr, mem⟩ ⟨delim, delims, out.token⟩ ⟨none, out.saveptr, out.mem⟩

/-- `strtok_r` called with `p` and then with null. -/
def machine (mem : Memory) (p : Nat) (saveptr : Option Nat) : Machine Tokenizing Turn where
  init := ⟨some p, saveptr, mem⟩
  step := Step

def separators (tr : List Turn) : List (UInt8 → Bool) := tr.map fun turn => separates turn.delims

/-- What is left of the text after some calls, and what these calls have found. -/
def textLeft (p : Nat) (s : List UInt8) (tr : List Turn) : Remaining UInt8 := (separators tr).foldl Remaining.next ⟨p, s⟩

def tokensFound (p : Nat) (s : List UInt8) (tr : List Turn) : List (Option (Nat × List UInt8)) :=
  (Remaining.mk p s).tokens (separators tr)

/-- A byte that a call has overwritten: the delimiter behind the token it returned. -/
def CutAt (mem : Memory) (p : Nat) (s : List UInt8) (tr : List Turn) (a : Nat) : Prop :=
  ∃ (i : Nat) (turn : Turn) (start : Nat) (word : List UInt8) (c : UInt8), tr[i]? = some turn ∧ (tokensFound p s tr)[i]? = some (some (start, word)) ∧
    a = start + word.length ∧ mem a = some c ∧ c ∈ turn.delims

structure Inv (mem : Memory) (p : Nat) (s : List UInt8) (tr : List Turn) (st : Tokenizing) : Prop where
  text : HoldsString st.mem (textLeft p s tr).start (textLeft p s tr).text
  begins : p ≤ (textLeft p s tr).start
  ends : (textLeft p s tr).start + (textLeft p s tr).text.length = p + s.length
  resumes : (st.s <|> st.saveptr) = some (textLeft p s tr).start ∨
    (st.s <|> st.saveptr) = none ∧ (textLeft p s tr).text = []
  pointers : tr.map Turn.token = (tokensFound p s tr).map (Option.map Prod.fst)
  kept : ∀ a word, some (a, word) ∈ tokensFound p s tr → st.mem.Holds a (word ++ [0]) ∧
    (a + word.length < (textLeft p s tr).start ∨ (textLeft p s tr).text = [])
  changed : ∀ a, st.mem a ≠ mem a → a < (textLeft p s tr).start ∧ st.mem a = some 0 ∧ CutAt mem p s tr a

section
variable {mem : Memory} {p : Nat} {s : List UInt8} {tr : List Turn} {st : Tokenizing} {turn : Turn}

theorem textLeft_concat : textLeft p s (tr ++ [turn]) = (textLeft p s tr).next (separates turn.delims) := by
  simp only [textLeft, separators, List.map_append, List.map_cons, List.map_nil, List.foldl_append, List.foldl_cons,
    List.foldl_nil]

theorem tokensFound_concat : tokensFound p s (tr ++ [turn]) = tokensFound p s tr ++ [(textLeft p s tr).token (separates turn.delims)] := by
  simp only [tokensFound, textLeft, separators, List.map_append, List.map_cons, List.map_nil, Remaining.tokens_concat]

theorem tokensFound_length : (tokensFound p s tr).length = tr.length := by
  rw [tokensFound, Remaining.tokens_length, separators, List.length_map]

theorem CutAt.concat {a : Nat} (cut : CutAt mem p s tr a) : CutAt mem p s (tr ++ [turn]) a := by
  obtain ⟨i, earlier, start, word, c, atTurn, atFound, rest⟩ := cut
  have inside : i < tr.length := (List.getElem?_eq_some_iff.mp atTurn).1
  refine ⟨i, earlier, start, word, c, ?_, ?_, rest⟩
  · rw [List.getElem?_append_left inside, atTurn]
  · rw [tokensFound_concat, List.getElem?_append_left (by rwa [tokensFound_length]), atFound]

theorem CutAt.last {a : Nat} {word : List UInt8} {x : UInt8}
    (found : (textLeft p s tr).token (separates turn.delims) = some (a, word)) (first : mem (a + word.length) = some x)
    (delimiter : x ∈ turn.delims) : CutAt mem p s (tr ++ [turn]) (a + word.length) := by
  refine ⟨tr.length, turn, a, word, x, ?_, ?_, rfl, first, delimiter⟩
  · rw [List.getElem?_append_right (Nat.le_refl _), Nat.sub_self]
    rfl
  · rw [tokensFound_concat, found, List.getElem?_append_right (by rw [tokensFound_length]), tokensFound_length,
      Nat.sub_self]
    rfl

/-- A call that finds nothing more changes nothing, and ends the text. -/
theorem Inv.noToken {saveptr : Option Nat} (inv : Inv mem p s tr st)
    (nothing : (textLeft p s tr).token (separates turn.delims) = none) (returned : turn.token = none)
    (nowhere : saveptr = none) : Inv mem p s (tr ++ [turn]) ⟨none, saveptr, st.mem⟩ := by
  have exhausted : textLeft p s (tr ++ [turn]) = ⟨(textLeft p s tr).start + (textLeft p s tr).text.length, []⟩ := by
    rw [textLeft_concat, Remaining.token_none nothing]
  have more : tokensFound p s (tr ++ [turn]) = tokensFound p s tr ++ [none] := by rw [tokensFound_concat, nothing]
  refine ⟨?_, ?_, ?_, ?_, ?_, ?_, ?_⟩
  · rw [exhausted]
    exact ⟨by simp, (Memory.holds_append.mp inv.text.held).2⟩
  · rw [exhausted]
    exact Nat.le_trans inv.begins (Nat.le_add_right _ _)
  · rw [exhausted]
    exact inv.ends
  · rw [exhausted, nowhere]
    exact Or.inr ⟨rfl, rfl⟩
  · rw [more, List.map_append, List.map_append, inv.pointers]
    simp [returned]
  · intro a word member
    rw [more] at member
    have earlier : some (a, word) ∈ tokensFound p s tr := by simpa using member
    rw [exhausted]
    exact ⟨(inv.kept a word earlier).1, Or.inr rfl⟩
  · intro a differs
    obtain ⟨before, zero, cut⟩ := inv.changed a differs
    rw [exhausted]
    exact ⟨Nat.lt_of_lt_of_le before (Nat.le_add_right _ _), zero, cut.concat⟩

end

/-- The token that is cut off a text in memory, and the text behind the cut. -/
structure Cut (mem : Memory) (r : Remaining UInt8) (sep : UInt8 → Bool) (a : Nat) (word : List UInt8) : Prop where
  token : mem.Holds a word
  rest : HoldsString (mem.write (a + word.length) [0]) (r.next sep).start (r.next sep).text
  ends : (r.next sep).start + (r.next sep).text.length = r.start + r.text.length
  after : r.start ≤ a
  nonempty : r.text ≠ []
  behind : (∃ x, sep x = true ∧ mem (a + word.length) = some x ∧ (r.next sep).start = a + word.length + 1) ∨
    mem (a + word.length) = some 0 ∧ (r.next sep).start = a + word.length ∧ (r.next sep).text = []

theorem Cut.of_token {mem : Memory} {r : Remaining UInt8} {sep : UInt8 → Bool} {a : Nat} {word : List UInt8}
    (text : HoldsString mem r.start r.text) (found : r.token sep = some (a, word)) : Cut mem r sep a word := by
  obtain ⟨nonempty, front, rfl, place⟩ := Remaining.token_some found
  obtain ⟨noNul, held⟩ := text
  rcases place with ⟨whole, next⟩ | ⟨x, stops, whole, next⟩
  · rw [whole, List.append_assoc, Memory.holds_append, Memory.holds_append] at held
    have last := (Memory.holds_cons.mp held.2.2).1
    refine ⟨held.2.1, ?_, ?_, Nat.le_add_right _ _, ?_, Or.inr ⟨last, by rw [next], by rw [next]⟩⟩
    · rw [next]
      exact ⟨by simp, Memory.write_holds⟩
    · simp only [next, whole, List.length_append, List.length_nil]
      omega
    · rw [whole]
      exact List.append_ne_nil_of_right_ne_nil front nonempty
  · have lengths := congrArg List.length whole
    simp only [List.length_append, List.length_cons] at lengths
    rw [whole, List.append_assoc, Memory.holds_append, List.append_assoc, Memory.holds_append, List.cons_append] at held
    obtain ⟨first, later⟩ := Memory.holds_cons.mp held.2.2
    refine ⟨held.2.1, ⟨?_, ?_⟩, by omega, Nat.le_add_right _ _, ?_, Or.inl ⟨x, stops, first, next⟩⟩
    · intro member
      rw [whole] at noNul
      exact noNul (List.mem_append_right _ (List.mem_append_right _ (List.mem_cons_of_mem x member)))
    · rw [next]
      refine later.write_byte ?_
      intro k _
      omega
    · intro empty
      rw [empty, List.length_nil] at lengths
      omega

section
variable {mem : Memory} {p : Nat} {s : List UInt8} {tr : List Turn} {st : Tokenizing} {turn : Turn}

/-- A call that finds a token cuts it off, in the part of the text that no earlier call
has looked at. -/
theorem Inv.token {a : Nat} {word : List UInt8} (inv : Inv mem p s tr st)
    (found : (textLeft p s tr).token (separates turn.delims) = some (a, word)) (returned : turn.token = some a) :
    Inv mem p s (tr ++ [turn])
      ⟨none, some (textLeft p s (tr ++ [turn])).start, st.mem.write (a + word.length) [0]⟩ := by
  have cut := Cut.of_token inv.text found
  have more : tokensFound p s (tr ++ [turn]) = tokensFound p s tr ++ [some (a, word)] := by
    rw [tokensFound_concat, found]
  obtain ⟨token, rest, ends, after, nonempty, behind⟩ := cut
  rw [← textLeft_concat] at rest ends behind
  have further : a + word.length ≤ (textLeft p s (tr ++ [turn])).start := by
    rcases behind with ⟨_, _, _, next⟩ | ⟨_, next, _⟩ <;> omega
  have original : st.mem (a + word.length) = mem (a + word.length) := by
    by_contra differs
    have before := (inv.changed _ differs).1
    omega
  refine ⟨rest, by have := inv.begins; omega, by rw [ends, inv.ends], Or.inl rfl, ?_, ?_, ?_⟩
  · rw [more, List.map_append, List.map_append, inv.pointers]
    simp [returned]
  · intro b other member
    rw [more, List.mem_append, List.mem_singleton] at member
    rcases member with earlier | new
    · obtain ⟨held, before | exhausted⟩ := inv.kept b other earlier
      · refine ⟨held.write_byte ?_, Or.inl (by omega)⟩
        intro k inside
        rw [List.length_append, List.length_singleton] at inside
        omega
      · exact absurd exhausted nonempty
    · cases new
      refine ⟨Memory.holds_append.mpr ⟨token.write_byte ?_, Memory.write_holds⟩, ?_⟩
      · intro k inside
        omega
      · rcases behind with ⟨_, _, _, next⟩ | ⟨_, _, exhausted⟩
        · exact Or.inl (by omega)
        · exact Or.inr exhausted
  · intro b differs
    dsimp only at differs ⊢
    by_cases here : b = a + word.length
    · subst here
      have zero : st.mem.write (a + word.length) [0] (a + word.length) = some 0 :=
        Memory.write_at (i := 0) (by simp)
      rw [zero, ← original] at differs
      rcases behind with ⟨x, delimiter, first, next⟩ | ⟨first, _, _⟩
      · exact ⟨by omega, zero, .last found (by rw [← original, first]) (of_decide_eq_true delimiter)⟩
      · exact absurd first.symm differs
    · have outside : st.mem.write (a + word.length) [0] b = st.mem b := Memory.write_of_ne here
      rw [outside] at differs ⊢
      obtain ⟨before, zero, cut⟩ := inv.changed b differs
      exact ⟨by omega, zero, cut.concat⟩

theorem init_inv (atS : HoldsString mem p s) (saveptr : Option Nat) : Inv mem p s [] ⟨some p, saveptr, mem⟩ where
  text := atS
  begins := Nat.le_refl p
  ends := rfl
  resumes := Or.inl rfl
  pointers := rfl
  kept _ _ member := nomatch member
  changed _ differs := absurd rfl differs

/-- What a call returns, from any state in which the text is left as described. -/
theorem Inv.returns {delim : Nat} {delims : List UInt8} (inv : Inv mem p s tr st) {other : Memory}
    (text : HoldsString other (textLeft p s tr).start (textLeft p s tr).text) (atDelim : HoldsString other delim delims) :
    Returns (fun fuel => strtokR fuel other st.s delim st.saveptr)
      (match (textLeft p s tr).token (separates delims) with
        | none => ⟨none, none, other⟩
        | some (a, word) => ⟨some a, some ((textLeft p s tr).next (separates delims)).start,
            other.write (a + word.length) [0]⟩) := by
  refine ⟨max delims.length (textLeft p s tr).text.length + 1, ?_⟩
  intro fuel enough
  rcases inv.resumes with resumes | ⟨nowhere, exhausted⟩
  · exact strtokR_eq atDelim (by omega) text resumes (by omega)
  · have nothing : (textLeft p s tr).token (separates delims) = none := by simp [Remaining.token, exhausted, firstToken]
    have unsaved : st.saveptr = none := by
      cases given : st.s with
      | none => simpa [given] using nowhere
      | some q => simp [given] at nowhere
    unfold strtokR
    rw [nowhere, nothing, unsaved]

theorem Inv.step {st' : Tokenizing} (inv : Inv mem p s tr st) (taken : Step st turn st') :
    Inv mem p s (tr ++ [turn]) st' := by
  cases taken with
  | @call arg saveptr now delim delims out atDelim returned =>
    have expected := returned.unique (inv.returns inv.text atDelim)
    cases found : (textLeft p s tr).token (separates delims) with
    | none =>
      rw [found] at expected
      subst expected
      exact inv.noToken found rfl rfl
    | some token =>
      obtain ⟨a, word⟩ := token
      rw [found] at expected
      subst expected
      have next : Inv mem p s (tr ++ [⟨delim, delims, some a⟩]) _ := inv.token found rfl
      rwa [textLeft_concat] at next

theorem run_inv {saveptr : Option Nat} (atS : HoldsString mem p s) (run : (machine mem p saveptr).Run tr st) :
    Inv mem p s tr st :=
  run.history (P := Inv mem p s) (init_inv atS saveptr) fun inv taken => inv.step taken

/-- `strtok_r` over any number of calls: each returns the next token of what is left of
the text and cuts it off there, tokens stay as returned, and a further call needs only the
text and its delimiters. -/
theorem strtok_r_tokenizes {saveptr : Option Nat} (atS : HoldsString mem p s)
    (run : (machine mem p saveptr).Run tr st) :
    tr.map Turn.token = (tokensFound p s tr).map (Option.map Prod.fst) ∧
      (∀ a word, some (a, word) ∈ tokensFound p s tr → st.mem.Holds a (word ++ [0])) ∧
      (∀ a, st.mem a ≠ mem a → st.mem a = some 0 ∧ CutAt mem p s tr a) ∧
      (∀ delims, (∀ turn ∈ tr, turn.delims = delims) →
        (tokensFound p s tr).map (Option.map Prod.snd) =
          ((segments (separates delims) s).map some).take tr.length ++
            List.replicate (tr.length - (segments (separates delims) s).length) none) ∧
      ∀ delim delims, HoldsString st.mem delim delims → (∃ token st', Step st ⟨delim, delims, token⟩ st') ∧
        st.mem.AccessesOnly (Set.Ico p (p + s.length + 1) ∪ Set.Ico delim (delim + delims.length + 1)) fun other =>
          ∃ out, Returns (fun fuel => strtokR fuel other st.s delim st.saveptr) out := by
  have inv := run_inv atS run
  refine ⟨inv.pointers, fun a word member => (inv.kept a word member).1, fun a differs => (inv.changed a differs).2,
    ?_, ?_⟩
  · intro delims all
    have same : separators tr = List.replicate tr.length (separates delims) := by
      rw [separators, List.eq_replicate_iff]
      refine ⟨List.length_map _, ?_⟩
      intro sep member
      obtain ⟨turn, inTrace, rfl⟩ := List.mem_map.mp member
      rw [all turn inTrace]
    rw [tokensFound, same, Remaining.tokens_replicate]
  · intro delim delims atDelim
    refine ⟨⟨_, _, Step.call atDelim (inv.returns inv.text atDelim)⟩, ?_⟩
    intro other same
    have begins := inv.begins
    have ends := inv.ends
    have text : HoldsString other (textLeft p s tr).start (textLeft p s tr).text := by
      refine inv.text.congr ?_
      rintro a ⟨lower, upper⟩
      exact same a (Or.inl ⟨by omega, by omega⟩)
    exact ⟨_, inv.returns text (atDelim.congr fun a inside => same a (Or.inr inside))⟩

end

/-- The text `a,b` and the delimiter string `,`. -/
def listText : Memory := (Memory.unmapped.write 16 [0x61, 0x2C, 0x62, 0]).write 64 [0x2C, 0]

theorem strtok_r_tokenizes_list :
    ∃ tr st, (machine listText 16 none).Run tr st ∧ tr.map Turn.token = [some 16, some 18, none] ∧
      st.mem.Holds 16 [0x61, 0] ∧ st.mem.Holds 18 [0x62, 0] := by
  have atS : HoldsString listText 16 [0x61, 0x2C, 0x62] := ⟨by decide, by decide⟩
  have comma : HoldsString listText 64 [0x2C] := ⟨by decide, by decide⟩
  have comma₁ : HoldsString (listText.write 17 [0]) 64 [0x2C] := ⟨by decide, by decide⟩
  have comma₂ : HoldsString ((listText.write 17 [0]).write 19 [0]) 64 [0x2C] := ⟨by decide, by decide⟩
  have first : (machine listText 16 none).Run [⟨64, [0x2C], some 16⟩] ⟨none, some 18, listText.write 17 [0]⟩ :=
    Machine.Run.start.next (Step.call comma ((init_inv atS none).returns atS comma))
  have inv := run_inv atS first
  have second : (machine listText 16 none).Run [⟨64, [0x2C], some 16⟩, ⟨64, [0x2C], some 18⟩]
      ⟨none, some 19, (listText.write 17 [0]).write 19 [0]⟩ :=
    first.next (Step.call comma₁ (inv.returns inv.text comma₁))
  have inv' := run_inv atS second
  have third := second.next (Step.call comma₂ (inv'.returns inv'.text comma₂))
  obtain ⟨pointers, kept, -⟩ := strtok_r_tokenizes atS third
  exact ⟨_, _, third, pointers.trans (by decide), kept 16 [0x61] (by decide), kept 18 [0x62] (by decide)⟩

end Strtok

end Libcsp
