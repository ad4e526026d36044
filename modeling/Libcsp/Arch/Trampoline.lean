import Libcsp.Base.Machine
import Libcsp.Base.Thumb

namespace Libcsp.Trampoline
open Sys Sys.Thumb

/-- The functions of `ropi_rwpi.S`. -/
inductive Name
  | getMs | getMsIsr | malloc | calloc | free | queueCreate
  deriving DecidableEq

/-- What the linker decides: where the trampolines and the functions they call are, and the
static base of the Rust side. -/
structure Image where
  code : BitVec 32 → Option Instr
  base : Name → BitVec 32
  impl : Name → BitVec 32
  dataStart : BitVec 32
  even : ∀ name, (base name).getLsbD 0 = false
  push : ∀ name, code (base name) = some (.push [r9, lr])
  ldr : ∀ name, code (base name + 4) = some (.ldrLiteral r9 dataStart)
  bl : ∀ name, code (base name + 8) = some (.bl (impl name))
  pop : ∀ name, code (base name + 12) = some (.pop [r9, pc])

/-- A call of a trampoline that has not returned, and the processor as it was called. -/
structure Call where
  name : Name
  entry : Cpu

/-- The two words that a call keeps on the stack. -/
def Call.words (call : Call) : List (BitVec 32) := [call.entry.reg sp - 8, call.entry.reg sp - 4]

structure State where
  cpu : Cpu
  calls : List Call

inductive Act
  | code
  | enter (name : Name)
  | leave (name : Name)

/-- The processor behind the `bl` of a trampoline. -/
def entered (image : Image) (name : Name) (s : Cpu) : Cpu :=
  ((((((s.store (s.reg sp - 8) (s.reg r9)).store (s.reg sp - 4) (s.reg lr)).set sp (s.reg sp - 8)).set r9 image.dataStart).set lr
    ((image.base name + 12) ||| 1)).set pc (image.impl name))

/-- C and Rust call each other, to any depth. Compiled code may do whatever it likes except to
the words that suspended trampolines keep on the stack, of which it has no pointer, and a
function that was called returns as the procedure call standard asks. -/
inductive Step (image : Image) : State → Act → State → Prop
  | code {s cpu} : (∀ call ∈ s.calls, ∀ a ∈ call.words, cpu.mem a = s.cpu.mem a) →
      Step image s .code { s with cpu := cpu }
  | enter {s name cpu} : s.cpu.reg pc = image.base name → Callable s.cpu → 8 ≤ (s.cpu.reg sp).toNat →
      (∀ call ∈ s.calls, (s.cpu.reg sp).toNat + 8 ≤ (call.entry.reg sp).toNat) →
      ((step image.code s.cpu).bind (step image.code)).bind (step image.code) = some cpu →
      Step image s (.enter name) ⟨cpu, ⟨name, s.cpu⟩ :: s.calls⟩
  | leave {s call rest cpu} : s.calls = call :: rest → Returned (entered image call.name call.entry) s.cpu →
      step image.code s.cpu = some cpu → Step image s (.leave call.name) ⟨cpu, rest⟩

def machine (image : Image) (boot : Cpu) : Machine State Act where
  init := ⟨boot, []⟩
  step := Step image

/-- What the Rust function finds, and what C gets back. -/
def Conforms (image : Image) (s : State) : Act → State → Prop
  | .code, _ => True
  | .enter name, t => t.cpu.reg r9 = image.dataStart ∧ t.cpu.reg pc = image.impl name ∧ Callable t.cpu ∧
      (∀ r, r ∉ [r9, sp, lr, pc] → t.cpu.reg r = s.cpu.reg r) ∧
      ∀ a, a ≠ s.cpu.reg sp - 8 → a ≠ s.cpu.reg sp - 4 → t.cpu.mem a = s.cpu.mem a
  | .leave _, t => (∃ call, s.calls = call :: t.calls ∧ Returned call.entry t.cpu) ∧
      (∀ r, r ∉ [r9, sp, pc] → t.cpu.reg r = s.cpu.reg r) ∧ t.cpu.mem = s.cpu.mem

/-- A trampoline that is called, or returned to, does not fault. -/
structure Runs (image : Image) (s : State) : Prop where
  enters : ∀ name, s.cpu.reg pc = image.base name → Callable s.cpu →
    (((step image.code s.cpu).bind (step image.code)).bind (step image.code)).isSome
  leaves : ∀ call rest, s.calls = call :: rest → Returned (entered image call.name call.entry) s.cpu →
    (step image.code s.cpu).isSome

/-- The words a suspended trampoline keeps are what it will pop. -/
structure Keeps (s : State) : Prop where
  r9 : ∀ call ∈ s.calls, s.cpu.mem (call.entry.reg sp - 8) = call.entry.reg r9
  lr : ∀ call ∈ s.calls, s.cpu.mem (call.entry.reg sp - 4) = call.entry.reg lr
  callable : ∀ call ∈ s.calls, Callable call.entry

variable {image : Image} {s t : State} {a : Act}

theorem enter_eq {s : Cpu} {name : Name} (here : s.reg pc = image.base name) (callable : Callable s) :
    ((step image.code s).bind (step image.code)).bind (step image.code) = some (entered image name s) := by
  have aligned := callable.aligned
  have pushed : step image.code s = some ((((s.store (s.reg sp - 8) (s.reg r9)).store (s.reg sp - 4) (s.reg lr)).set sp
      (s.reg sp - 8)).set pc (image.base name + 4)) := by
    rw [step_of_code (by rw [here, image.push]), exec_push_two (by bv_omega), here]
  generalize saves : ((s.store (s.reg sp - 8) (s.reg r9)).store (s.reg sp - 4) (s.reg lr)).set sp (s.reg sp - 8) = saved
    at pushed
  have loaded : step image.code (saved.set pc (image.base name + 4)) =
      some (((saved.set pc (image.base name + 4)).set r9 image.dataStart).set pc (image.base name + 8)) := by
    rw [step_of_code (by rw [Cpu.set_reg_self, image.ldr]), exec, Cpu.set_reg_self, BitVec.add_assoc]
    rfl
  rw [pushed, Option.bind_some, loaded, Option.bind_some, step_of_code (by rw [Cpu.set_reg_self, image.bl]), exec,
    Cpu.set_reg_self, BitVec.add_assoc]
  rw [Cpu.set_comm (show pc ≠ r9 by decide), Cpu.set_set, Cpu.set_comm (show pc ≠ lr by decide), Cpu.set_set, entered,
    ← saves]
  rfl

theorem entered_reg {s : Cpu} {name : Name} {r : Reg} (other : r ∉ [r9, sp, lr, pc]) :
    (entered image name s).reg r = s.reg r := by
  simp only [List.mem_cons, List.not_mem_nil, or_false, not_or] at other
  obtain ⟨static, stack, link, counter⟩ := other
  rw [entered, Cpu.set_reg_ne counter, Cpu.set_reg_ne link, Cpu.set_reg_ne static, Cpu.set_reg_ne stack, Cpu.store_reg,
    Cpu.store_reg]

theorem entered_sp (s : Cpu) (name : Name) : (entered image name s).reg sp = s.reg sp - 8 := by
  rw [entered, Cpu.set_reg_ne (by decide), Cpu.set_reg_ne (by decide), Cpu.set_reg_ne (by decide), Cpu.set_reg_self]

theorem entered_lr (s : Cpu) (name : Name) : (entered image name s).reg lr = (image.base name + 12) ||| 1 := by
  rw [entered, Cpu.set_reg_ne (by decide), Cpu.set_reg_self]

theorem entered_r9 (s : Cpu) (name : Name) : (entered image name s).reg r9 = image.dataStart := by
  rw [entered, Cpu.set_reg_ne (by decide), Cpu.set_reg_ne (by decide), Cpu.set_reg_self]

theorem entered_pc (s : Cpu) (name : Name) : (entered image name s).reg pc = image.impl name := by
  rw [entered, Cpu.set_reg_self]

theorem entered_mem (s : Cpu) (name : Name) : (entered image name s).mem =
    ((s.store (s.reg sp - 8) (s.reg r9)).store (s.reg sp - 4) (s.reg lr)).mem := rfl

theorem entered_callable {s : Cpu} (callable : Callable s) (name : Name) :
    Callable (entered image name s) where
  aligned := by
    have aligned := callable.aligned
    rw [entered_sp]
    bv_omega
  thumb := by
    rw [entered_lr]
    simp

/-- The function that was called comes back to the last instruction of the trampoline. -/
theorem returned_pc {name : Name} {entry exit : Cpu} (returned : Returned (entered image name entry) exit) :
    exit.reg pc = image.base name + 12 := by
  have even : (image.base name + 12).getLsbD 0 = false := by
    have base := image.even name
    rw [← BitVec.testBit_toNat, Nat.testBit_zero] at base ⊢
    have small := (image.base name).isLt
    simp only [decide_eq_false_iff_not] at base ⊢
    rw [BitVec.toNat_add]
    have twelve : (12 : BitVec 32).toNat = 12 := rfl
    rw [twelve]
    omega
  rw [returned.pc, entered_lr, and_not_one_or_one even]

/-- The processor behind the `pop`. -/
def left (entry exit : Cpu) : Cpu :=
  (((exit.set sp (entry.reg sp)).set r9 (entry.reg r9)).set pc (entry.reg lr &&& ~~~1))

theorem leave_eq {call : Call} {rest : List Call} (keeps : Keeps s) (calls : s.calls = call :: rest)
    (returned : Returned (entered image call.name call.entry) s.cpu) :
    step image.code s.cpu = some (left call.entry s.cpu) := by
  have innermost : call ∈ s.calls := by
    rw [calls]
    exact List.mem_cons_self
  have callable := keeps.callable call innermost
  have aligned := callable.aligned
  have stack : s.cpu.reg sp = call.entry.reg sp - 8 := returned.sp.trans (entered_sp ..)
  have second : s.cpu.reg sp + 4 = call.entry.reg sp - 4 := by rw [stack]; bv_omega
  have top : s.cpu.reg sp + 8 = call.entry.reg sp := by rw [stack]; bv_omega
  have word : s.cpu.mem (s.cpu.reg sp) = call.entry.reg r9 := by rw [stack, keeps.r9 call innermost]
  have link : s.cpu.mem (s.cpu.reg sp + 4) = call.entry.reg lr := by rw [second, keeps.lr call innermost]
  rw [step_of_code (by rw [returned_pc returned, image.pop]),
    exec_pop_return (by decide) (by rw [stack]; bv_omega) (by rw [link]; exact callable.thumb), word, link, top]
  rw [Cpu.set_comm (show pc ≠ r9 by decide), Cpu.set_set]
  rfl

theorem left_reg {entry exit : Cpu} {r : Reg} (other : r ∉ [r9, sp, pc]) : (left entry exit).reg r = exit.reg r := by
  simp only [List.mem_cons, List.not_mem_nil, or_false, not_or] at other
  obtain ⟨static, stack, counter⟩ := other
  rw [left, Cpu.set_reg_ne counter, Cpu.set_reg_ne static, Cpu.set_reg_ne stack]

theorem left_returned {name : Name} {entry exit : Cpu} (returned : Returned (entered image name entry) exit) :
    Returned entry (left entry exit) where
  pc := by rw [left, Cpu.set_reg_self]
  sp := by rw [left, Cpu.set_reg_ne (by decide), Cpu.set_reg_ne (by decide), Cpu.set_reg_self]
  saved r member := by
    by_cases static : r = r9
    · rw [static, left, Cpu.set_reg_ne (by decide), Cpu.set_reg_self]
    · have ordinary : r ∉ [r9, sp, lr, pc] := by
        intro special
        simp only [List.mem_cons, List.not_mem_nil, or_false, static, false_or] at special
        rcases special with rfl | rfl | rfl <;> exact absurd member (by decide)
      rw [left_reg (fun special => ordinary (by simp at special ⊢; tauto)), returned.saved r member, entered_reg ordinary]

theorem Keeps.step (keeps : Keeps s) (step : Step image s a t) : Keeps t := by
  cases step with
  | @code cpu untouched =>
    refine ⟨?_, ?_, keeps.callable⟩
    · intro call member
      rw [untouched call member _ (by simp [Call.words]), keeps.r9 call member]
    · intro call member
      rw [untouched call member _ (by simp [Call.words]), keeps.lr call member]
  | @enter name cpu here callable room below runs =>
    rw [enter_eq here callable] at runs
    obtain rfl := Option.some.inj runs
    have first : (s.cpu.reg sp - 8 : BitVec 32) ≠ s.cpu.reg sp - 4 := by bv_omega
    have apart : ∀ call ∈ s.calls, ∀ a ∈ call.words, a ≠ s.cpu.reg sp - 8 ∧ a ≠ s.cpu.reg sp - 4 := by
      intro call member a word
      have order := below call member
      simp only [Call.words, List.mem_cons, List.not_mem_nil, or_false] at word
      rcases word with rfl | rfl <;> constructor <;> bv_omega
    have older : ∀ call ∈ s.calls, ∀ a ∈ call.words, (entered image name s.cpu).mem a = s.cpu.mem a := by
      intro call member a word
      obtain ⟨low, high⟩ := apart call member a word
      rw [entered_mem, Cpu.store_mem_ne high, Cpu.store_mem_ne low]
    refine ⟨?_, ?_, ?_⟩
    · intro call member
      rcases List.mem_cons.mp member with rfl | earlier
      · rw [entered_mem, Cpu.store_mem_ne first, Cpu.store_mem_self]
      · rw [older call earlier _ (by simp [Call.words]), keeps.r9 call earlier]
    · intro call member
      rcases List.mem_cons.mp member with rfl | earlier
      · rw [entered_mem, Cpu.store_mem_self]
      · rw [older call earlier _ (by simp [Call.words]), keeps.lr call earlier]
    · intro call member
      rcases List.mem_cons.mp member with rfl | earlier
      · exact callable
      · exact keeps.callable call earlier
  | @leave call rest cpu calls returned runs =>
    rw [leave_eq keeps calls returned] at runs
    obtain rfl := Option.some.inj runs
    have outer : ∀ other ∈ rest, other ∈ s.calls := by
      intro other member
      rw [calls]
      exact List.mem_cons_of_mem _ member
    exact ⟨fun other member => keeps.r9 other (outer other member), fun other member => keeps.lr other (outer other member),
      fun other member => keeps.callable other (outer other member)⟩

theorem Keeps.conforms (keeps : Keeps s) (step : Step image s a t) : Conforms image s a t := by
  cases step with
  | code => trivial
  | @enter name cpu here callable room below runs =>
    rw [enter_eq here callable] at runs
    obtain rfl := Option.some.inj runs
    refine ⟨entered_r9 .., entered_pc .., entered_callable callable name, fun r other => entered_reg other, ?_⟩
    intro a low high
    rw [entered_mem, Cpu.store_mem_ne high, Cpu.store_mem_ne low]
  | @leave call rest cpu calls returned runs =>
    rw [leave_eq keeps calls returned] at runs
    obtain rfl := Option.some.inj runs
    exact ⟨⟨call, calls, left_returned returned⟩, fun r other => left_reg other, rfl⟩

theorem Keeps.runs (keeps : Keeps s) : Runs image s where
  enters name here callable := by rw [enter_eq here callable]; rfl
  leaves call rest calls returned := by rw [leave_eq keeps calls returned]; rfl

/-- However deep C and Rust call each other, Rust runs on its static base and C finds its
registers as it left them. -/
theorem trampolines_conform {boot : Cpu} {tr : List Act} (run : (machine image boot).Run tr s) :
    ((machine image boot).obey (Conforms image)).Run tr s ∧ Runs image s := by
  suffices ((machine image boot).obey (Conforms image)).Run tr s ∧ Keeps s from ⟨this.1, this.2.runs⟩
  induction run with
  | start => exact ⟨.start, ⟨nofun, nofun, nofun⟩⟩
  | next _ taken ih => exact ⟨ih.1.next ⟨taken, ih.2.conforms taken⟩, ih.2.step taken⟩

/-- Six trampolines in a row, with their functions behind them. -/
def sample : Image where
  code a :=
    if a.toNat < 96 then
      match a.toNat % 16 with
      | 0 => some (.push [r9, lr])
      | 4 => some (.ldrLiteral r9 0x20000000)
      | 8 => some (.bl (BitVec.ofNat 32 (0x1000 + a.toNat / 16)))
      | 12 => some (.pop [r9, pc])
      | _ => none
    else none
  base name := BitVec.ofNat 32 (16 * name.ctorIdx)
  impl name := BitVec.ofNat 32 (0x1000 + name.ctorIdx)
  dataStart := 0x20000000
  even name := by cases name <;> rfl
  push name := by cases name <;> rfl
  ldr name := by cases name <;> rfl
  bl name := by cases name <;> rfl
  pop name := by cases name <;> rfl

/-- C is about to call `csp_malloc`, with something of its own in `r9`. -/
def callsMalloc : Cpu where
  reg r := if r = pc then sample.base .malloc else if r = sp then 0x20001000 else if r = lr then 0x8001 else 7
  mem _ := 0

theorem trampolines_conform_malloc :
    ∃ s, (machine sample callsMalloc).Run [.enter .malloc, .code, .leave .malloc] s ∧ s.cpu.reg 0 = 0x20000100 ∧
      s.cpu.reg r9 = 7 ∧ Runs sample s := by
  have callable : Callable callsMalloc := ⟨by decide, by decide⟩
  have entered' : (machine sample callsMalloc).Run [.enter .malloc] _ :=
    .next .start (.enter rfl callable (by decide) nofun (enter_eq rfl callable))
  have computed := entered'.next (@Step.code sample _
    (((entered sample .malloc callsMalloc).set 0 0x20000100).set pc (sample.base .malloc + 12)) fun _ _ _ _ => rfl)
  have returned : Returned (entered sample .malloc callsMalloc)
      (((entered sample .malloc callsMalloc).set 0 0x20000100).set pc (sample.base .malloc + 12)) :=
    ⟨by decide, by decide, by decide⟩
  have left' := computed.next (.leave rfl returned (leave_eq ⟨?_, ?_, ?_⟩ rfl returned))
  · exact ⟨_, left', by decide, by decide, (trampolines_conform left').2⟩
  all_goals
    intro call member
    obtain rfl := List.mem_singleton.mp member
  · decide
  · decide
  · exact callable

end Libcsp.Trampoline
