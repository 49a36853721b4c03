import Norn.Foundation.Bytes

/-!
# Computations with checks

A memory-safe program checks every index, every range of a slice, every
conversion of a slice to an array and, with overflow checks on, every sum and
difference.  A check that fails stops the program; that is another outcome
than an error, which the program returns.

A program that reads a byte string at positions which it computes is compared
with one that reads off the front of a list.  `Returns` says that a
computation passes all its checks and what it returns; the rules below follow
the two programs step by step.
-/

namespace Norn.Foundation

/-- The checks that stop a program. -/
inductive Fault where
  | index
  | range
  | conversion
  | overflow
  | capacity
  | assertion
  deriving DecidableEq, Repr

/-- A computation returns a value or an error, or it stops. -/
inductive Checked (Failure Value : Type) where
  | value (result : Value)
  | failure (error : Failure)
  | stop (fault : Fault)
  deriving DecidableEq

namespace Checked

variable {Failure Value Result : Type}

variable {first : Checked Failure Value}

/-- The next computation runs if the first one returns a value. -/
def bind (first : Checked Failure Value)
    (next : Value → Checked Failure Result) : Checked Failure Result :=
  match first with
  | .value result => next result
  | .failure error => .failure error
  | .stop fault => .stop fault

instance : Monad (Checked Failure) where
  pure := .value
  bind := bind

@[simp]
theorem value_bind (result : Value) (next : Value → Checked Failure Result) :
    (Checked.value result >>= next) = next result :=
  rfl

theorem bind_of_value {result : Value} (passes : first = .value result)
    (next : Value → Checked Failure Result) :
    (first >>= next) = next result := by
  rw [passes, value_bind]

/-- The errors are converted, as `?` does. -/
def mapFailure {Other : Type} (convert : Failure → Other) :
    Checked Failure Value → Checked Other Value
  | .value result => .value result
  | .failure error => .failure (convert error)
  | .stop fault => .stop fault

/-- The computation returns, with a value or an error. -/
def Returns (self : Checked Failure Value) : Except Failure Value → Prop
  | .ok result => self = .value result
  | .error error => self = .failure error

/-- A sum of numbers with `width` bits. -/
def add (width left right : Nat) : Checked Failure Nat :=
  if left + right < 2 ^ width then .value (left + right)
  else .stop .overflow

/-- A difference of signed words. -/
def subSigned (left right : Int64) : Checked Failure Int64 :=
  if -2 ^ 63 ≤ left.toInt - right.toInt ∧ left.toInt - right.toInt < 2 ^ 63 then
    .value (left - right)
  else
    .stop .overflow

/-- A word is shifted by less than its width. -/
def shl (word : UInt64) (amount : Nat) : Checked Failure UInt64 :=
  if amount < 64 then .value (word <<< UInt64.ofNat amount)
  else .stop .overflow

theorem add_of_lt {width left right : Nat} (small : left + right < 2 ^ width) :
    (add width left right : Checked Failure Nat) = .value (left + right) :=
  if_pos small

theorem shl_of_lt {word : UInt64} {amount : Nat} (small : amount < 64) :
    (shl word amount :
      Checked Failure UInt64) = .value (word <<< UInt64.ofNat amount) :=
  if_pos small

theorem returns_value (result : Value) :
    (Checked.value result : Checked Failure Value).Returns (.ok result) :=
  rfl

theorem returns_failure (error : Failure) :
    (Checked.failure error : Checked Failure Value).Returns (.error error) :=
  rfl

/-- A check that passes. -/
theorem Returns.step {result : Value} {next : Value → Checked Failure Result}
    {outcome : Except Failure Result} (passes : first = .value result)
    (rest : (next result).Returns outcome) :
    (first >>= next).Returns outcome := by
  rw [bind_of_value passes]
  exact rest

/-- Two computations go on with the same value. -/
theorem Returns.bind {outcome : Except Failure Value}
    {next : Value → Checked Failure Result}
    {continuation : Value → Except Failure Result}
    (returns : first.Returns outcome)
    (rest :
      ∀ result, outcome = .ok result →
        (next result).Returns (continuation result)) :
    (first >>= next).Returns (outcome >>= continuation) := by
  cases outcome with
  | error error =>
    change first = .failure error at returns
    rw [returns]
    exact returns_failure error
  | ok result =>
    change first = .value result at returns
    rw [returns]
    exact rest result rfl

theorem Returns.mapFailure {Other : Type} {self : Checked Failure Value}
    {outcome : Except Failure Value} (returns : self.Returns outcome)
    (convert : Failure → Other) :
    (self.mapFailure convert).Returns (outcome.mapError convert) := by
  cases outcome with
  | error error =>
    change self = .failure error at returns
    rw [returns]
    exact returns_failure _
  | ok result =>
    change self = .value result at returns
    rw [returns]
    exact returns_value _

/-- Two computations branch in the same way. -/
theorem Returns.branch {condition other : Prop} [Decidable condition]
    [Decidable other] {second : Checked Failure Value}
    {left right : Except Failure Value} (same : condition ↔ other)
    (holds : condition → first.Returns left)
    (fails : ¬condition → second.Returns right) :
    (if condition then first else second).Returns
      (if other then left else right) := by
  by_cases decided : condition
  · rw [if_pos decided, if_pos (same.mp decided)]
    exact holds decided
  · rw [if_neg decided, if_neg (mt same.mpr decided)]
    exact fails decided

end Checked

/-! ## Slices -/

/-- A slice of bytes in memory; no allocation is larger than `isize::MAX`. -/
structure Slice where
  bytes : List UInt8
  bounded : bytes.length < 2 ^ 63

namespace Slice

variable {Failure Value Result : Type} {data : Slice}

/-- The number of bytes. -/
def length (self : Slice) : Nat := self.bytes.length

/-- The byte at a position. -/
def index (self : Slice) (position : Nat) : Checked Failure UInt8 :=
  match self.bytes[position]? with
  | some byte => .value byte
  | none => .stop .index

/-- The slice from a position on. -/
def behind (self : Slice) (start : Nat) : Checked Failure Slice :=
  if start ≤ self.length then
    .value ⟨self.bytes.drop start,
      Nat.lt_of_le_of_lt (List.drop_sublist ..).length_le self.bounded⟩
  else
    .stop .range

/-- The slice between two positions. -/
def between (self : Slice) (start finish : Nat) : Checked Failure Slice :=
  if start ≤ finish ∧ finish ≤ self.length then
    .value ⟨(self.bytes.drop start).take (finish - start),
      Nat.lt_of_le_of_lt
        ((List.take_sublist ..).trans (List.drop_sublist ..)).length_le
        self.bounded⟩
  else
    .stop .range

/-- A new vector with the given bytes. -/
def alloc (bytes : List UInt8) : Checked Failure Slice :=
  if bounded : bytes.length < 2 ^ 63 then .value ⟨bytes, bounded⟩
  else .stop .capacity

theorem index_of_getElem? {position : Nat} {byte : UInt8}
    (found : data.bytes[position]? = some byte) :
    (data.index position : Checked Failure UInt8) = .value byte := by
  unfold index
  rw [found]

theorem behind_of_le {start : Nat} (inside : start ≤ data.length) :
    ∃ rest : Slice,
      (data.behind start : Checked Failure Slice) = .value rest ∧
        rest.bytes = data.bytes.drop start :=
  ⟨_, if_pos inside, rfl⟩

theorem between_of_le {start finish : Nat} (ordered : start ≤ finish)
    (inside : finish ≤ data.length) :
    ∃ slice : Slice,
      (data.between start finish : Checked Failure Slice) = .value slice ∧
        slice.bytes = (data.bytes.drop start).take (finish - start) :=
  ⟨_, if_pos ⟨ordered, inside⟩, rfl⟩

theorem alloc_of_lt {bytes : List UInt8} (small : bytes.length < 2 ^ 63) :
    ∃ slice : Slice,
      (alloc bytes :
        Checked Failure Slice) = .value slice ∧ slice.bytes = bytes :=
  ⟨⟨bytes, small⟩, dif_pos small, rfl⟩

end Slice

end Norn.Foundation
