import TickMachine.Arch.Op
import TickMachine.Arch.Register

/-! # The catalogs of registers and operations

Looking up a register or an operation by its code gives exactly the one that has the code, so
which codes are taken can be said as a range of numbers. Names are told apart as well, whatever
the case of their letters. -/

namespace TickMachine

namespace Register

theorem code_toInt (register : Register) : register.code.toInt = (register.index : Nat) := by
  cases register <;> rfl

theorem ofCode?_code (register : Register) : ofCode? register.code = some register := by
  cases register <;> rfl

theorem ofCode?_eq_some_iff {code : Int32} {register : Register} :
    ofCode? code = some register ↔ register.code = code := by
  constructor
  · intro found
    simpa using List.find?_some found
  · rintro rfl
    exact ofCode?_code register

/-- Eight codes name a register. -/
theorem ofCode?_eq_none_iff {code : Int32} :
    ofCode? code = none ↔ ¬(0 ≤ code.toInt ∧ code.toInt < 8) := by
  constructor
  · intro missing range
    have places : ∀ place : Fin 8, ∃ register ∈ all, register.index = place := by decide
    obtain ⟨register, -, place⟩ := places ⟨code.toInt.toNat, by omega⟩
    have named : register.code = code := by
      apply Int32.toInt_inj.1
      rw [code_toInt, place]
      simp only
      omega
    rw [ofCode?_eq_some_iff.2 named] at missing
    cases missing
  · intro outside
    rcases found : ofCode? code with _ | register
    · rfl
    · have named := code_toInt register
      rw [ofCode?_eq_some_iff.1 found] at named
      have := register.index.isLt
      omega

theorem mem_all (register : Register) : register ∈ all := by
  cases register <;> decide

theorem ofName?_name (register : Register) : ofName? register.name = some register := by
  cases register <;> decide +kernel

end Register

namespace Op

theorem ofCode?_code (op : Op) : ofCode? op.code = some op := by
  cases op <;> rfl

theorem ofCode?_eq_some_iff {code : Int32} {op : Op} : ofCode? code = some op ↔ op.code = code := by
  constructor
  · intro found
    simpa using List.find?_some found
  · rintro rfl
    exact ofCode?_code op

/-- The codes count the operations in their order. -/
theorem all_code (op : Op) : 0 ≤ op.code.toInt ∧ all[op.code.toInt.toNat]? = some op := by
  cases op <;> decide

theorem ofMnemonic?_mnemonic (op : Op) : ofMnemonic? op.mnemonic = some op := by
  cases op <;> decide +kernel

theorem mnemonic_inj {left right : Op} : left.mnemonic = right.mnemonic ↔ left = right := by
  refine ⟨fun same => ?_, congrArg mnemonic⟩
  have named := ofMnemonic?_mnemonic left
  rw [same, ofMnemonic?_mnemonic] at named
  exact (Option.some.inj named).symm

theorem ofMnemonic?_eq_some_iff {mnemonic : String} {op : Op} :
    ofMnemonic? mnemonic = some op ↔ Text.sameFolded op.mnemonic mnemonic = true := by
  constructor
  · intro found
    simpa using List.find?_some found
  · intro same
    unfold Text.sameFolded at same
    have named := ofMnemonic?_mnemonic op
    unfold ofMnemonic? Text.sameFolded at named ⊢
    rwa [← eq_of_beq same]

end Op

end TickMachine
