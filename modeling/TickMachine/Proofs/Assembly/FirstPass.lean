import TickMachine.Assembly.Draft
import TickMachine.Proofs.Assembly.Items
import TickMachine.Proofs.Assembly.LabelTable

/-! # The first pass

A first pass that succeeds has read one item from each part of the program and has added the items
in their order. The words of the draft are then the words of the items one after the other, and each
label stands at the number of words in front of it. -/

namespace TickMachine

/-- Each part gives its item. -/
inductive Read : List Part → List Item → Prop
  | nil : Read [] []
  | cons {part : Part} {item : Item} {parts : List Part} {items : List Item}
    (first : part.Gives item) (others : Read parts items) : Read (part :: parts) (item :: items)

/-- The words of a sequence of items. -/
def wordsOf (items : List Item) : List DraftWord := items.flatMap Item.words

namespace Draft

/-- Items are added to a draft one after the other. -/
inductive Adds : Draft → List Item → Draft → Prop
  | nil (draft : Draft) : Adds draft [] draft
  | cons {draft middle last : Draft} {item : Item} {items : List Item}
    (first : draft.add item = .ok middle) (others : Adds middle items last) :
    Adds draft (item :: items) last

/-! ## Reading the parts -/

theorem extend_nil (draft : Draft) : draft.extend [] = (draft.labels, .ok draft) := by
  rw [extend]

theorem extend_cons {draft middle : Draft} {token : Token} {tokens rest : List Token} {item : Item}
    (read : Item.read token tokens = .ok (item, rest)) (added : draft.add item = .ok middle) :
    draft.extend (token :: tokens) = middle.extend rest := by
  rw [extend]
  split
  · next refused => rw [read] at refused; cases refused
  · next found =>
    rw [read] at found
    cases found
    rw [added]

/-- What a first pass that succeeds begins with. -/
theorem extend_cons_ok {draft last : Draft} {token : Token} {tokens : List Token}
    {labels : LabelTable} (h : draft.extend (token :: tokens) = (labels, .ok last)) :
    ∃ item rest middle, Item.read token tokens = .ok (item, rest) ∧ draft.add item = .ok middle ∧
      middle.extend rest = (labels, .ok last) := by
  rw [extend] at h
  split at h
  · cases h
  · next item rest read =>
    split at h
    · cases h
    · next middle added => exact ⟨item, rest, middle, read, added, h⟩

theorem isArgument_of_read {token : Token} {tokens rest : List Token} {item : Item}
    (h : Item.read token tokens = .ok (item, rest)) : token.isArgument = false := by
  unfold Item.read at h
  unfold Token.isArgument
  cases kind : token.kind with
  | label | instruction => rfl
  | number | string | reference | register => simp [kind] at h

/-- The tokens of a first pass that succeeds do not start with an argument. -/
theorem ends_of_extend {draft last : Draft} {tokens : List Token} {labels : LabelTable}
    (h : draft.extend tokens = (labels, .ok last)) : Text.Ends Token.isArgument tokens := by
  cases tokens with
  | nil => exact Text.ends_nil
  | cons token tokens =>
    obtain ⟨item, rest, middle, read, -, -⟩ := extend_cons_ok h
    exact Text.ends_cons (isArgument_of_read read)

/-- A first pass that succeeds reads an item from each part and adds the items in their order. -/
theorem extend_ok {draft last : Draft} {tokens : List Token} {labels : LabelTable}
    (h : draft.extend tokens = (labels, .ok last)) :
    labels = last.labels ∧ ∃ items, Read (parts tokens) items ∧ Adds draft items last := by
  generalize size : tokens.length = n
  induction n using Nat.strongRecOn generalizing draft tokens with
  | ind n ih =>
    cases tokens with
    | nil =>
      rw [extend_nil] at h
      cases h
      exact ⟨rfl, [], by rw [parts_nil]; exact .nil, .nil last⟩
    | cons token tokens =>
      obtain ⟨item, rest, middle, read, added, others⟩ := extend_cons_ok h
      obtain ⟨used, rfl, arguments, alone⟩ := Item.read_reading read
      have shorter : rest.length < n := by
        rw [← size, List.length_cons, List.length_append]
        omega
      obtain ⟨same, items, readOthers, adds⟩ := ih rest.length shorter others rfl
      refine ⟨same, item :: items, ?_, .cons added adds⟩
      rw [parts_cons arguments (ends_of_extend others)]
      exact .cons alone readOthers

/-! ## Adding the items -/

/-- What adding an item does to a draft. -/
structure Added (draft : Draft) (item : Item) (middle : Draft) : Prop where
  words : middle.words.toList = draft.words.toList ++ item.words
  kept : ∀ name address, draft.labels.find? name = some address →
    middle.labels.find? name = some address
  entered : ∀ name, item = .label name → middle.labels.find? name = some draft.words.size
  known : ∀ name address, middle.labels.find? name = some address →
    draft.labels.find? name = some address ∨ item = .label name ∧ address = draft.words.size

theorem added_of_ok {draft middle : Draft} {item : Item} (h : draft.add item = .ok middle) :
    Added draft item middle := by
  cases item with
  | label label =>
    rw [add] at h
    split at h
    · cases h
    · next labels inserted =>
      cases h
      have find := LabelTable.find?_insert inserted
      have missing := (LabelTable.insert_ok inserted).1
      refine ⟨by simp [Item.words], ?_, ?_, ?_⟩
      · intro name address found
        rw [find, if_neg, found]
        rintro rfl
        rw [missing] at found
        cases found
      · rintro name same
        cases same
        rw [find, if_pos rfl]
      · intro name address found
        rw [find] at found
        split at found
        · next same =>
          cases found
          exact .inr ⟨by rw [same], rfl⟩
        · exact .inl found
  | instruction op operands =>
    cases h
    exact ⟨by simp, fun _ _ found => found, fun _ same => (by cases same), fun _ _ => .inl⟩
  | data arguments =>
    cases h
    exact ⟨by simp, fun _ _ found => found, fun _ same => (by cases same), fun _ _ => .inl⟩

section

variable {draft last : Draft} {items : List Item}

theorem words_of_adds (adds : Adds draft items last) :
    last.words.toList = draft.words.toList ++ wordsOf items := by
  induction adds with
  | nil draft => simp [wordsOf]
  | cons first others ih =>
    rw [ih, (added_of_ok first).words, wordsOf, wordsOf, List.flatMap_cons, List.append_assoc]

theorem size_of_adds (adds : Adds draft items last) :
    last.words.size = draft.words.size + (wordsOf items).length := by
  have words := congrArg List.length (words_of_adds adds)
  rwa [List.length_append, Array.length_toList, Array.length_toList] at words

theorem kept_of_adds (adds : Adds draft items last) {name : String} {address : Nat}
    (found : draft.labels.find? name = some address) :
    last.labels.find? name = some address := by
  induction adds with
  | nil draft => exact found
  | cons first others ih => exact ih ((added_of_ok first).kept name address found)

theorem adds_append {before after : List Item} (adds : Adds draft (before ++ after) last) :
    ∃ middle, Adds draft before middle ∧ Adds middle after last := by
  induction before generalizing draft with
  | nil => exact ⟨draft, .nil draft, adds⟩
  | cons item before ih =>
    obtain _ | ⟨first, others⟩ := adds
    obtain ⟨middle, front, back⟩ := ih others
    exact ⟨middle, .cons first front, back⟩

theorem Adds.append {middle : Draft} {front back : List Item}
    (first : Adds draft front middle) (second : Adds middle back last) :
    Adds draft (front ++ back) last := by
  induction first with
  | nil => exact second
  | cons added others ih => exact .cons added (ih second)

/-- A label stands at the number of words in front of it. -/
theorem label_of_adds {before after : List Item} {name : String}
    (adds : Adds draft (before ++ .label name :: after) last) :
    last.labels.find? name = some (draft.words.size + (wordsOf before).length) := by
  obtain ⟨middle, front, back⟩ := adds_append adds
  obtain _ | ⟨first, others⟩ := back
  rw [← size_of_adds front]
  exact kept_of_adds others ((added_of_ok first).entered name rfl)

/-- Every label of a draft has been entered by an item or was there before. -/
theorem known_of_adds (adds : Adds draft items last) {name : String} {address : Nat}
    (found : last.labels.find? name = some address) :
    draft.labels.find? name = some address ∨
      ∃ before after, items = before ++ .label name :: after ∧
        address = draft.words.size + (wordsOf before).length := by
  induction adds with
  | nil draft => exact .inl found
  | @cons draft middle last item items first others ih =>
    have size : middle.words.size = draft.words.size + item.words.length := by
      have words := congrArg List.length (added_of_ok first).words
      rwa [List.length_append, Array.length_toList, Array.length_toList] at words
    rcases ih found with known | ⟨before, after, rfl, place⟩
    · rcases (added_of_ok first).known name address known with known | ⟨rfl, place⟩
      · exact .inl known
      · exact .inr ⟨[], items, rfl, place⟩
    · refine .inr ⟨item :: before, after, rfl, ?_⟩
      rw [place, size, wordsOf, wordsOf, List.flatMap_cons, List.length_append, Nat.add_assoc]

end

end Draft

end TickMachine
