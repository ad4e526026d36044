import Mathlib.Data.List.Basic
import Mathlib.Logic.Function.Basic
import Mathlib.Tactic.Common

namespace Sys.Thumb

abbrev Reg := Fin 16

def r9 : Reg := 9
def sp : Reg := 13
def lr : Reg := 14
def pc : Reg := 15

/-- Core registers, and memory by the addresses of its words. The program counter is the
address of the next instruction. -/
@[ext]
structure Cpu where
  reg : Reg → BitVec 32
  mem : BitVec 32 → BitVec 32

/-- The instructions that are four bytes long in Thumb-2 and that a veneer is made of. -/
inductive Instr
  | push (regs : List Reg)
  | pop (regs : List Reg)
  | ldrLiteral (rd : Reg) (value : BitVec 32)
  | bl (target : BitVec 32)

namespace Cpu

def set (s : Cpu) (r : Reg) (v : BitVec 32) : Cpu := { s with reg := Function.update s.reg r v }

def store (s : Cpu) (a v : BitVec 32) : Cpu := { s with mem := Function.update s.mem a v }

@[simp] theorem set_mem (s : Cpu) (r : Reg) (v : BitVec 32) : (s.set r v).mem = s.mem := rfl

@[simp] theorem set_reg_self (s : Cpu) (r : Reg) (v : BitVec 32) : (s.set r v).reg r = v := Function.update_self ..

@[simp] theorem set_reg_ne {s : Cpu} {r q : Reg} {v : BitVec 32} (other : q ≠ r) : (s.set r v).reg q = s.reg q :=
  Function.update_of_ne other ..

theorem set_set (s : Cpu) (r : Reg) (v w : BitVec 32) : (s.set r v).set r w = s.set r w := by
  rw [set, set, set, Function.update_idem]

theorem set_comm {s : Cpu} {r q : Reg} (other : r ≠ q) (v w : BitVec 32) :
    (s.set r v).set q w = (s.set q w).set r v := by
  rw [set, set, set, set, Function.update_comm other]

@[simp] theorem store_reg (s : Cpu) (a v : BitVec 32) : (s.store a v).reg = s.reg := rfl

@[simp] theorem store_mem_self (s : Cpu) (a v : BitVec 32) : (s.store a v).mem a = v := Function.update_self ..

@[simp] theorem store_mem_ne {s : Cpu} {a b v : BitVec 32} (other : b ≠ a) : (s.store a v).mem b = s.mem b :=
  Function.update_of_ne other ..

end Cpu

/-- Lowest register at the lowest address. -/
def storeMultiple (s : Cpu) (a : BitVec 32) : List (BitVec 32) → Cpu
  | [] => s
  | v :: vs => storeMultiple (s.store a v) (a + 4) vs

/-- A word loaded to `pc` is a branch, which faults unless it stays in Thumb state. -/
def loadRegister (s : Cpu) (r : Reg) (v : BitVec 32) : Option Cpu :=
  if r = pc then (if v.getLsbD 0 then some (s.set pc (v &&& ~~~1)) else none) else some (s.set r v)

def loadMultiple (s : Cpu) (a : BitVec 32) : List Reg → Option Cpu
  | [] => some s
  | r :: rs => (loadRegister s r (s.mem a)).bind fun s => loadMultiple s (a + 4) rs

/-- `none` is a fault. -/
def exec (s : Cpu) : Instr → Option Cpu
  | .push regs =>
    let a := s.reg sp - BitVec.ofNat 32 (4 * regs.length)
    if a.toNat % 4 = 0 then some (((storeMultiple s a (regs.map s.reg)).set sp a).set pc (s.reg pc + 4)) else none
  | .pop regs =>
    let a := s.reg sp
    if a.toNat % 4 = 0 then
      loadMultiple ((s.set sp (a + BitVec.ofNat 32 (4 * regs.length))).set pc (s.reg pc + 4)) a regs
    else none
  | .ldrLiteral rd value => some ((s.set rd value).set pc (s.reg pc + 4))
  | .bl target => some ((s.set lr ((s.reg pc + 4) ||| 1)).set pc target)

/-- Fetch and execute. -/
def step (code : BitVec 32 → Option Instr) (s : Cpu) : Option Cpu := (code (s.reg pc)).bind (exec s)

/-- The registers that a function gives back as it found them. -/
def calleeSaved : List Reg := [4, 5, 6, 7, 8, 9, 10, 11]

/-- What the procedure call standard asks of a function between its entry and its return, as
far as registers go. -/
structure Returned (entry exit : Cpu) : Prop where
  pc : exit.reg pc = entry.reg lr &&& ~~~1
  sp : exit.reg sp = entry.reg sp
  saved : ∀ r ∈ calleeSaved, exit.reg r = entry.reg r

/-- What it asks of the caller. -/
structure Callable (entry : Cpu) : Prop where
  aligned : (entry.reg sp).toNat % 8 = 0
  thumb : (entry.reg lr).getLsbD 0 = true

theorem and_not_one_or_one {a : BitVec 32} (even : a.getLsbD 0 = false) : (a ||| 1) &&& ~~~1 = a := by
  ext i small
  rcases Nat.eq_zero_or_pos i with rfl | positive
  · simpa using even.symm
  · have clear : (1 : BitVec 32)[i] = false := by
      simp [Nat.pos_iff_ne_zero.mp positive]
    simp only [BitVec.getElem_and, BitVec.getElem_or, BitVec.getElem_not, clear, Bool.or_false, Bool.not_false,
      Bool.and_true]

theorem step_of_code {code : BitVec 32 → Option Instr} {s : Cpu} {i : Instr} (here : code (s.reg pc) = some i) :
    step code s = exec s i := by
  rw [step, here, Option.bind_some]

theorem exec_push_two {s : Cpu} {r q : Reg} (aligned : (s.reg sp - 8).toNat % 4 = 0) :
    exec s (.push [r, q]) = some ((((s.store (s.reg sp - 8) (s.reg r)).store (s.reg sp - 4) (s.reg q)).set sp
      (s.reg sp - 8)).set pc (s.reg pc + 4)) := by
  have next : s.reg sp - 8 + 4 = s.reg sp - 4 := by bv_omega
  have width : BitVec.ofNat 32 (4 * [r, q].length) = 8 := rfl
  simp only [exec, width]
  rw [if_pos aligned, List.map_cons, List.map_cons, List.map_nil, storeMultiple, storeMultiple, storeMultiple, next]

/-- A function returns: the second word that is popped goes to `pc`. -/
theorem exec_pop_return {s : Cpu} {r : Reg} (ordinary : r ≠ pc) (aligned : (s.reg sp).toNat % 4 = 0)
    (thumb : (s.mem (s.reg sp + 4)).getLsbD 0 = true) :
    exec s (.pop [r, pc]) = some ((((s.set sp (s.reg sp + 8)).set pc (s.reg pc + 4)).set r (s.mem (s.reg sp))).set pc
      (s.mem (s.reg sp + 4) &&& ~~~1)) := by
  have width : BitVec.ofNat 32 (4 * [r, pc].length) = 8 := rfl
  simp only [exec, width]
  rw [if_pos aligned]
  simp only [loadMultiple, loadRegister, if_neg ordinary, Cpu.set_mem, Option.bind_some, if_true, thumb]

end Sys.Thumb
