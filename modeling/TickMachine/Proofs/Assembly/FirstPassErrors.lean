import TickMachine.Proofs.Assembly.FirstPass
import TickMachine.Proofs.Assembly.Grammar

/-! # Errors of the first pass

The first pass goes through the tokens item by item, and it fails where the tokens, read one by one,
first go wrong: at a token that no program has in its place, at a label that has been defined
before, or at the end of the tokens where the last item is not complete. -/

namespace TickMachine

/-- The name that a token defines. -/
def Token.defined? (token : Token) : Option String :=
  if token.kind = .label then some token.value else none

/-- The names that tokens define, in their order. -/
def definitions (tokens : List Token) : List String := tokens.filterMap Token.defined?

/-- A name that is defined again, where no name has been defined again before. -/
def Redefines (names : List String) (name : String) : Prop :=
  ∃ before after, names = before ++ name :: after ∧ before.Nodup ∧ name ∈ before

theorem exists_redefines {names : List String} (double : ¬names.Nodup) :
    ∃ name, Redefines names name := by
  -- the names are taken from the back, so that those in front are free of double ones first
  generalize reversed : names.reverse = back
  obtain rfl : names = back.reverse := by rw [← reversed, List.reverse_reverse]
  clear reversed
  induction back with
  | nil => exact absurd List.nodup_nil double
  | cons last front ih =>
    rw [List.reverse_cons] at double ⊢
    by_cases fresh : front.reverse.Nodup
    · refine ⟨last, front.reverse, [], rfl, fresh, ?_⟩
      apply Decidable.byContradiction
      intro missing
      refine double (List.nodup_append.2 ⟨fresh, List.nodup_cons.2 ⟨List.not_mem_nil, .nil⟩, ?_⟩)
      rintro name member _ again rfl
      rw [List.mem_singleton.1 again] at member
      exact missing member
    · obtain ⟨name, before, after, split, nodup, member⟩ := ih fresh
      exact ⟨name, before, after ++ [last], by rw [split, List.append_assoc]; rfl, nodup, member⟩

namespace Stage

/-- What goes wrong first with the tokens behind a stage, once labels of the names `seen` have been
defined. -/
def firstError (seen : List String) (stage : Stage) : List Token → Option AssemblyError
  | [] => stage.missing?
  | token :: tokens =>
    match stage.next token with
    | .error error => some error
    | .ok behind =>
      if token.kind = .label then
        if token.value ∈ seen then some (.labelRedefinition token.value)
        else firstError (seen ++ [token.value]) behind tokens
      else firstError seen behind tokens

variable {stage middle last : Stage} {seen : List String} {token : Token} {tokens : List Token}

theorem firstError_of_error {error : AssemblyError} (stuck : stage.next token = .error error) :
    stage.firstError seen (token :: tokens) = some error := by
  rw [firstError, stuck]

theorem firstError_of_ok (read : stage.next token = .ok middle) (other : token.kind ≠ .label) :
    stage.firstError seen (token :: tokens) = middle.firstError seen tokens := by
  rw [firstError, read]
  exact if_neg other

/-! ## Behind tokens that a program can begin with -/

theorem definitions_cons_label (kind : token.kind = .label) :
    definitions (token :: tokens) = token.value :: definitions tokens :=
  List.filterMap_cons_some (if_pos kind)

theorem definitions_cons_other (kind : token.kind ≠ .label) :
    definitions (token :: tokens) = definitions tokens :=
  List.filterMap_cons_none (if_neg kind)

theorem not_mem_of_nodup {name : String} {others : List String}
    (fresh : (seen ++ [name] ++ others).Nodup) : name ∉ seen := by
  intro member
  have apart := (List.nodup_append.1 (List.nodup_append.1 fresh).1).2.2
  exact apart name member name (List.mem_singleton_self name) rfl

/-- Without a double definition, what goes wrong first comes behind the tokens that are in order. -/
theorem firstError_of_nodup (read : stage.run tokens = .ok last)
    (fresh : (seen ++ definitions tokens).Nodup) (more : List Token) :
    stage.firstError seen (tokens ++ more) =
      last.firstError (seen ++ definitions tokens) more := by
  induction tokens generalizing stage seen with
  | nil =>
    cases read
    rw [definitions, List.filterMap_nil, List.append_nil]
    rfl
  | cons token tokens ih =>
    rw [run_cons] at read
    obtain ⟨middle, first, others⟩ := bind_ok read
    rw [List.cons_append]
    by_cases kind : token.kind = .label
    · rw [definitions_cons_label kind, List.append_cons] at fresh ⊢
      have missing := not_mem_of_nodup fresh
      rw [firstError, first]
      simp only [kind, missing, if_true, if_false]
      exact ih others fresh
    · rw [definitions_cons_other kind] at fresh ⊢
      rw [firstError_of_ok first kind]
      exact ih others fresh

/-- A double definition goes wrong whatever comes behind it. -/
theorem firstError_of_redefines (read : stage.run tokens = .ok last) {before after : List String}
    {name : String} (split : definitions tokens = before ++ name :: after)
    (fresh : (seen ++ before).Nodup) (again : name ∈ seen ++ before) (more : List Token) :
    stage.firstError seen (tokens ++ more) = some (.labelRedefinition name) := by
  induction tokens generalizing stage seen before with
  | nil => cases before <;> cases split
  | cons token tokens ih =>
    rw [run_cons] at read
    obtain ⟨middle, first, others⟩ := bind_ok read
    rw [List.cons_append]
    by_cases kind : token.kind = .label
    · rw [definitions_cons_label kind] at split
      rw [firstError, first]
      cases before with
      | nil =>
        obtain ⟨rfl, -⟩ := List.cons.inj split
        rw [List.append_nil] at again
        simp only [kind, again, if_true]
      | cons second before =>
        obtain ⟨rfl, others'⟩ := List.cons.inj split
        rw [List.append_cons] at fresh again
        have missing := not_mem_of_nodup fresh
        simp only [kind, missing, if_true, if_false]
        exact ih others others' fresh again
    · rw [definitions_cons_other kind] at split
      rw [firstError_of_ok first kind]
      exact ih others split fresh again

/-! ## Items are read as their tokens are -/

/-- The first error of an item that is read from the front of the tokens and goes on with those
behind it. -/
def behind {α : Type} (seen : List String) :
    Except AssemblyError (α × List Token) → Option AssemblyError
  | .error error => some error
  | .ok (_, rest) => Stage.between.firstError seen rest

theorem inRange_eq (token : Token) :
    token.inRange =
      (token.kind == .number && (Decimal.readInt32? token.value.toList).isSome) := by
  unfold Token.inRange Decimal.readInt32?
  cases Decimal.readInt? token.value.toList with
  | none => rfl
  | some i =>
    have bounds : (Decimal.toInt32? i).isSome = decide (-2147483648 ≤ i ∧ i ≤ 2147483647) := by
      unfold Decimal.toInt32?
      split
      · next inside => exact (decide_eq_true inside).symm
      · next outside => exact (decide_eq_false outside).symm
    rw [Option.bind_some, bounds]
    rfl

/-- A token is read as an operand exactly where it fits. -/
theorem errorOf?_readOperand (op : Op) (kind : OperandKind) (token : Token) :
    errorOf? (Item.readOperand op kind token) =
      if token.fits kind then none else some (token.misfit op kind) := by
  unfold Item.readOperand Token.fits Token.misfit
  rw [inRange_eq]
  cases kind with
  | register =>
    cases same : token.kind with
    | register =>
      have named : (Register.ofName? token.value).isSome =
          Register.all.any fun register => Text.sameFolded register.name token.value :=
        List.isSome_find?
      simp only [beq_self_eq_true, Bool.true_and, ← named]
      cases Register.ofName? token.value <;> rfl
    | label | instruction | number | string | reference => rfl
  | immediate =>
    cases same : token.kind with
    | number =>
      simp only [Item.readNumber, beq_self_eq_true, Bool.true_and]
      cases Decimal.readInt32? token.value.toList <;> rfl
    | label | instruction | register | string | reference => rfl

/-- A token is read as a datum exactly where it can be an argument of a data item. -/
theorem errorOf?_readDatum (datum : Item.isDatum token = true) :
    errorOf? (Item.readDatum token) =
      if token.places then none else some (.invalidNumber token.value) := by
  unfold Item.isDatum at datum
  unfold Item.readDatum Token.places
  rw [inRange_eq]
  cases same : token.kind with
  | number =>
    simp only [Item.readNumber, beq_self_eq_true, Bool.true_and]
    cases Decimal.readInt32? token.value.toList <;> rfl
  | string | reference => rfl
  | label | instruction | register => simp [same] at datum

theorem kind_ne_label_of_fits {kind : OperandKind} (fits : token.fits kind = true) :
    token.kind ≠ .label := by
  intro label
  cases kind <;> simp [Token.fits, Token.inRange, label] at fits

theorem firstError_operands (seen : List String) (op : Op) (kinds : List OperandKind)
    (tokens : List Token) :
    (awaiting op kinds).firstError seen tokens =
      behind seen (Item.readOperands op kinds tokens) := by
  induction kinds generalizing tokens with
  | nil => rfl
  | cons kind kinds ih =>
    cases tokens with
    | nil => rfl
    | cons token tokens =>
      have read := errorOf?_readOperand op kind token
      by_cases fits : token.fits kind = true
      · rw [if_pos fits] at read
        obtain ⟨operand, read⟩ := errorOf?_eq_none_iff.1 read
        have step : (awaiting op (kind :: kinds)).next token = .ok (awaiting op kinds) := by
          rw [awaiting, next, if_pos fits]
        rw [firstError_of_ok step (kind_ne_label_of_fits fits), ih, Item.readOperands, read]
        cases Item.readOperands op kinds tokens <;> rfl
      · rw [if_neg fits] at read
        have step : (awaiting op (kind :: kinds)).next token = .error (token.misfit op kind) := by
          rw [awaiting, next, if_neg fits]
        rw [firstError_of_error step, Item.readOperands, errorOf?_eq_some_iff.1 read]
        rfl

theorem next_of_isDatum (datum : Item.isDatum token = true) (filled : Bool) :
    (data filled).next token =
      if token.places then .ok (.data true) else .error (.invalidNumber token.value) := by
  rw [next]
  split
  · rfl
  · next misplaced =>
    unfold Item.isDatum at datum
    unfold Token.places at misplaced
    cases same : token.kind with
    | number => rfl
    | string | reference => simp [same] at misplaced
    | label | instruction | register => simp [same] at datum

theorem next_of_not_isDatum (other : Item.isDatum token = false) (filled : Bool) :
    (data filled).next token = if filled then opened token else .error (.dataKind token) := by
  have outside : token.places = false ∧ token.kind ≠ .number := by
    unfold Item.isDatum at other
    unfold Token.places Token.inRange
    cases same : token.kind with
    | number | string | reference => simp [same] at other
    | label | instruction | register => exact ⟨rfl, TokenKind.noConfusion⟩
  simp only [next, outside.1, outside.2, Bool.false_eq_true, if_false]

/-- Behind a first argument, the arguments of a data item are the run of tokens that can be ones. -/
theorem firstError_filled (seen : List String) (tokens : List Token) :
    (data true).firstError seen tokens =
      behind seen (((tokens.takeWhile Item.isDatum).mapM Item.readDatum).map fun found =>
        (found, tokens.dropWhile Item.isDatum)) := by
  induction tokens with
  | nil => rfl
  | cons token tokens ih =>
    cases datum : Item.isDatum token with
    | true =>
      have step := next_of_isDatum datum true
      have read := errorOf?_readDatum datum
      have other : token.kind ≠ .label := by
        intro label
        simp [Item.isDatum, label] at datum
      rw [List.takeWhile_cons_of_pos datum, List.dropWhile_cons_of_pos datum, List.mapM_cons]
      by_cases places : token.places = true
      · rw [if_pos places] at step read
        obtain ⟨found, read⟩ := errorOf?_eq_none_iff.1 read
        rw [firstError_of_ok step other, ih, read]
        cases (tokens.takeWhile Item.isDatum).mapM Item.readDatum <;> rfl
      · rw [if_neg places] at step read
        rw [firstError_of_error step, errorOf?_eq_some_iff.1 read]
        rfl
    | false =>
      rw [List.takeWhile_cons_of_neg (Bool.eq_false_iff.1 datum),
        List.dropWhile_cons_of_neg (Bool.eq_false_iff.1 datum), firstError,
        next_of_not_isDatum datum]
      rfl

theorem firstError_data (seen : List String) (tokens : List Token) :
    (data false).firstError seen tokens = behind seen (Item.readData tokens) := by
  cases tokens with
  | nil => rfl
  | cons token tokens =>
    cases datum : Item.isDatum token with
    | true =>
      have same : (data false).firstError seen (token :: tokens) =
          (data true).firstError seen (token :: tokens) := by
        rw [firstError, firstError, next_of_isDatum datum, next_of_isDatum datum]
      have front := List.takeWhile_cons_of_pos (l := tokens) datum
      rw [same, firstError_filled, Item.readData_of_takeWhile front, front]
    | false =>
      have step := next_of_not_isDatum datum false
      have front := List.takeWhile_cons_of_neg (l := tokens) (Bool.eq_false_iff.1 datum)
      have read : Item.readData (token :: tokens) = .error (.dataKind token) := by
        unfold Item.readData
        rw [front]
      rw [firstError_of_error step, read]
      rfl

theorem firstError_item (seen : List String) (other : token.kind ≠ .label) (tokens : List Token) :
    Stage.between.firstError seen (token :: tokens) = behind seen (Item.read token tokens) := by
  unfold Item.read
  cases kind : token.kind with
  | label => exact absurd kind other
  | number | string | reference | register =>
    exact firstError_of_error (by simp only [next, opened, kind])
  | instruction =>
    simp only
    split
    · next named =>
      have step : Stage.between.next token = .ok (.data false) :=
        opened_of_placesData (by rw [Token.placesData, kind, named]; rfl)
      rw [firstError_of_ok step other, firstError_data]
      cases Item.readData tokens <;> rfl
    · next named =>
      have command : token.placesData = false := by
        rw [Token.placesData, Bool.eq_false_iff.2 named, Bool.and_false]
      cases found : Op.ofMnemonic? token.value with
      | none =>
        exact firstError_of_error (by
          simp only [next, opened, kind, command, found, Bool.false_eq_true, if_false])
      | some op =>
        have step : Stage.between.next token = .ok (awaiting op op.kinds) := by
          simp only [next, opened, kind, command, found, Bool.false_eq_true, if_false]
        rw [firstError_of_ok step other, firstError_operands]
        simp only
        cases Item.readOperands op op.kinds tokens <;> rfl

end Stage

/-! ## The first pass -/

namespace Draft

theorem kind_of_read_label {token : Token} {tokens rest : List Token} {name : String}
    (h : Item.read token tokens = .ok (.label name, rest)) : token.kind = .label := by
  unfold Item.read at h
  split at h
  · next kind => exact kind
  · split at h
    · split at h <;> cases h
    · split at h
      · cases h
      · split at h <;> cases h
  · cases h

theorem extend_of_unread {draft : Draft} {token : Token} {tokens : List Token}
    {error : AssemblyError} (unread : Item.read token tokens = .error error) :
    draft.extend (token :: tokens) = (draft.labels, .error error) := by
  rw [extend]
  split
  · next refused =>
    rw [unread] at refused
    cases refused
    rfl
  · next read =>
    rw [unread] at read
    cases read

theorem extend_of_refused {draft : Draft} {token : Token} {tokens rest : List Token} {item : Item}
    {error : AssemblyError} (read : Item.read token tokens = .ok (item, rest))
    (refused : draft.add item = .error error) :
    draft.extend (token :: tokens) = (draft.labels, .error error) := by
  rw [extend]
  split
  · next unread =>
    rw [read] at unread
    cases unread
  · next found =>
    rw [read] at found
    cases found
    rw [refused]

/-- The first pass fails where the tokens first go wrong. -/
theorem errorOf?_extend {draft : Draft} {seen : List String} {tokens : List Token}
    (known : ∀ name, (draft.labels.find? name).isSome = true ↔ name ∈ seen) :
    errorOf? (draft.extend tokens).2 = Stage.between.firstError seen tokens := by
  -- an item takes up several tokens, so the induction is on how many are left
  generalize size : tokens.length = n
  induction n using Nat.strongRecOn generalizing draft seen tokens with
  | ind n ih =>
    cases tokens with
    | nil =>
      rw [extend_nil]
      rfl
    | cons token tokens =>
      by_cases kind : token.kind = .label
      · have read : Item.read token tokens = .ok (.label token.value, tokens) := by
          rw [Item.read, kind]
        have step : Stage.between.next token = .ok .between := by
          rw [Stage.next, Stage.opened, kind]
        rw [Stage.firstError, step]
        simp only [kind, if_true]
        by_cases double : token.value ∈ seen
        · have refused : draft.add (.label token.value) =
              .error (.labelRedefinition token.value) := by
            rw [add, LabelTable.insert, if_pos ((known _).2 double)]
          rw [extend_of_refused read refused, if_pos double]
          rfl
        · have inserted : draft.labels.insert token.value draft.words.size =
              .ok ⟨draft.labels.entries ++ [(token.value, draft.words.size)]⟩ := by
            rw [LabelTable.insert, if_neg (mt (known _).1 double)]
          have added : draft.add (.label token.value) = .ok { draft with
              labels := ⟨draft.labels.entries ++ [(token.value, draft.words.size)]⟩ } := by
            rw [add, inserted]
          rw [extend_cons read added, if_neg double]
          refine ih tokens.length ?_ ?_ rfl
          · rw [← size]
            exact Nat.lt_succ_self _
          · intro name
            rw [LabelTable.find?_insert inserted, List.mem_append, List.mem_singleton, ← known name]
            split
            · next same => simp [same]
            · next same => simp [same]
      · rw [Stage.firstError_item seen kind]
        cases read : Item.read token tokens with
        | error error =>
          rw [extend_of_unread read]
          rfl
        | ok found =>
          obtain ⟨item, rest⟩ := found
          have unlabelled : draft.add item =
              .ok { draft with words := draft.words ++ item.words } := by
            cases item with
            | label name => exact absurd (kind_of_read_label read) kind
            | instruction op operands | data arguments => rfl
          rw [extend_cons read unlabelled]
          refine ih rest.length ?_ known rfl
          rw [← size]
          exact Nat.lt_succ_of_le (Item.read_length_le read)

end Draft

end TickMachine
