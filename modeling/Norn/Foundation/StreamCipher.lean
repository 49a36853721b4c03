import Mathlib.Data.List.Basic

/-!
# Stream ciphers

A stream cipher handles one symbol after the other.  Each state masks one
symbol and hands on to the next state, whatever the symbol was; masking twice
in one state gives the symbol back.  So the masked symbols can be cut into
pieces in any way, and a second pass from the same state takes the mask off.
-/

namespace Norn.Foundation

/-- How the states of a cipher follow each other and what they mask. -/
structure StreamCipher (State Symbol : Type*) where
  advance : State → State
  mask : State → Symbol → Symbol
  mask_mask : ∀ state symbol, mask state (mask state symbol) = symbol

namespace StreamCipher

variable {State Symbol : Type*} (cipher : StreamCipher State Symbol)

/-- Mask some symbols; the state after them and the masked symbols. -/
def apply (state : State) : List Symbol → State × List Symbol
  | [] => (state, [])
  | symbol :: symbols =>
    let later := apply (cipher.advance state) symbols
    (later.1, cipher.mask state symbol :: later.2)

@[simp]
theorem length_apply (state : State) (symbols : List Symbol) :
    (cipher.apply state symbols).2.length = symbols.length := by
  induction symbols generalizing state with
  | nil => rfl
  | cons symbol symbols induction => simp [apply, induction]

theorem apply_append (state : State) (first second : List Symbol) :
    cipher.apply state (first ++ second) =
      let middle := cipher.apply state first
      let last := cipher.apply middle.1 second
      (last.1, middle.2 ++ last.2) := by
  induction first generalizing state with
  | nil => rfl
  | cons symbol first induction =>
    simp only [List.cons_append, apply, induction]

/-- The second pass takes the mask off and ends in the same state. -/
theorem apply_apply (state : State) (symbols : List Symbol) :
    cipher.apply state (cipher.apply state symbols).2 =
      ((cipher.apply state symbols).1, symbols) := by
  induction symbols generalizing state with
  | nil => rfl
  | cons symbol symbols induction =>
    simp only [apply, induction, cipher.mask_mask]

/-- What begins with masked symbols is the mask of what begins with them. -/
theorem isPrefix_of_apply {state : State} {first second rest : List Symbol}
    (same :
      (cipher.apply state first).2 ++ rest = (cipher.apply state second).2) :
    first <+: second := by
  have unmasked := congrArg (fun symbols => (cipher.apply state symbols).2) same
  simp only [apply_append, apply_apply] at unmasked
  exact ⟨_, unmasked⟩

end StreamCipher

end Norn.Foundation
