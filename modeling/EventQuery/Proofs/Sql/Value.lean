import EventQuery.Query.Basic
import Mathlib.Algebra.Order.Ring.Rat
import Mathlib.Data.Rat.Lemmas
import Mathlib.Data.String.Basic
import Mathlib.Data.Sum.Order

/-! The values of SQL. Numbers are exact. Values are in one order, null before all others and the
kinds of values one after the other; a comparison with null gives null. Functions of many values
leave the nulls out. -/

namespace EventQuery

namespace Sql

inductive Value where
  | null
  | boolean (b : Bool)
  | number (x : ℚ)
  | text (s : String)
  /-- A date by its day, a time of day and a timestamp by their ticks. -/
  | date (day : ℤ)
  | time (tick : ℤ)
  | timestamp (tick : ℤ)

namespace Value

/-- The place of a value in the order of all values. -/
private def key : Value → Unit ⊕ₗ Bool ⊕ₗ ℚ ⊕ₗ String ⊕ₗ ℤ ⊕ₗ ℤ ⊕ₗ ℤ
  | null => .inlₗ ()
  | boolean b => .inrₗ (.inlₗ b)
  | number x => .inrₗ (.inrₗ (.inlₗ x))
  | text s => .inrₗ (.inrₗ (.inrₗ (.inlₗ s)))
  | date d => .inrₗ (.inrₗ (.inrₗ (.inrₗ (.inlₗ d))))
  | time t => .inrₗ (.inrₗ (.inrₗ (.inrₗ (.inrₗ (.inlₗ t)))))
  | timestamp t => .inrₗ (.inrₗ (.inrₗ (.inrₗ (.inrₗ (.inrₗ t)))))

private theorem key_injective : Function.Injective key := by
  intro a b h
  cases a <;> cases b <;> simp_all [key, Sum.inlₗ, Sum.inrₗ]

instance : LinearOrder Value := LinearOrder.lift' key key_injective

/-- A conjunction is false if one side is, and null if it is neither that nor true. -/
def and : Value → Value → Value
  | boolean false, _ => boolean false
  | _, boolean false => boolean false
  | boolean true, boolean true => boolean true
  | _, _ => null

theorem and_eq_true_iff {a b : Value} :
    a.and b = boolean true ↔ a = boolean true ∧ b = boolean true := by
  unfold Value.and
  split <;> simp_all

/-! ## Functions of many values -/

def present (vs : List Value) : List Value := vs.filter (· ≠ null)

def number? : Value → Option ℚ
  | number x => some x
  | _ => none

def count (vs : List Value) : Value := number (present vs).length

def countDistinct (vs : List Value) : Value := number (present vs).dedup.length

/-- A sum of nothing is null. -/
def sum (vs : List Value) : Value :=
  match vs.filterMap number? with
  | [] => null
  | x :: xs => number (x :: xs).sum

def average (vs : List Value) : Value :=
  match vs.filterMap number? with
  | [] => null
  | x :: xs => number ((x :: xs).sum / (x :: xs).length)

def minimum (vs : List Value) : Value := (present vs).min?.getD null

def maximum (vs : List Value) : Value := (present vs).max?.getD null

/-- The largest of values that are all the same is this value, also where it is null. -/
theorem maximum_of_forall_eq {vs : List Value} {v : Value} (hne : vs ≠ [])
    (h : ∀ x ∈ vs, x = v) : maximum vs = v := by
  rw [List.eq_replicate_of_mem h, maximum, present, List.filter_replicate]
  by_cases hv : v = null
  · simp [hv]
  · have hlen : vs.length ≠ 0 := by simpa using hne
    obtain ⟨n, hn⟩ := Nat.exists_eq_succ_of_ne_zero hlen
    rw [hn]
    simp [hv]

end Value

end Sql

namespace Comparison

def holds (a b : Sql.Value) : Comparison → Bool
  | .eq => a = b
  | .ne => a ≠ b
  | .lt => a < b
  | .le => a ≤ b
  | .gt => b < a
  | .ge => b ≤ a

/-- The truth value of a comparison. -/
def apply (c : Comparison) (a b : Sql.Value) : Sql.Value :=
  if a = .null ∨ b = .null then .null else .boolean (c.holds a b)

/-- A comparison is only true of values that are there. -/
theorem apply_eq_true_iff {c : Comparison} {a b : Sql.Value} :
    c.apply a b = .boolean true ↔ a ≠ .null ∧ b ≠ .null ∧ c.holds a b = true := by
  unfold apply
  split
  · next h => simp only [reduceCtorEq, false_iff]; tauto
  · next h =>
    rw [not_or] at h
    simp [h.1, h.2]

end Comparison

/-- The exact number that a finite one stands for. -/
def Binary64.toRat : Binary64 → Option ℚ
  | .finite negative rank =>
    let m := magnitude rank
    let x : ℚ := m.mantissa * 2 ^ m.exponent
    some (if negative then -x else x)
  | _ => none

/-- The value that a literal is written for; a literal that is not finite is written for none. -/
def Literal.value : Literal → Sql.Value
  | .text s => .text s
  | .integer n => .number n
  | .real x => (x.toRat.map .number).getD .null

end EventQuery
