import Mathlib.Data.List.Dedup
import Mathlib.Data.List.Induction
import TickMachine.Proofs.Assembly.LabelTable
import TickMachine.Proofs.Text.ByteOrder

/-! # Symbol tables

Labels are entered by a sequence of calls, of which the first one for each name counts. The table is
shown address by address, with the names of an address in the order of their bytes, and does not
depend on the order in which the names come out of the table. -/

namespace TickMachine.LabelTable

/-! ## Calls -/

/-- The table after a call. A call that fails leaves it as it was. -/
def call (table : LabelTable) (name : String) (address : Nat) : LabelTable :=
  match table.insert name address with
  | .ok larger => larger
  | .error _ => table

/-- The table after calls on the empty one. -/
def ofCalls (calls : List (String × Nat)) : LabelTable :=
  calls.foldl (fun table call => table.call call.1 call.2) empty

theorem ofCalls_append (calls : List (String × Nat)) (name : String) (address : Nat) :
    ofCalls (calls ++ [(name, address)]) = (ofCalls calls).call name address := by
  rw [ofCalls, List.foldl_append]
  rfl

/-- What a table holds after calls: the first address of each name, and each name once. -/
structure Records (calls : List (String × Nat)) (table : LabelTable) : Prop where
  found : ∀ name, table.find? name = calls.lookup name
  distinct : (table.entries.map Prod.fst).Nodup

section

variable {calls : List (String × Nat)} {table : LabelTable}

theorem isSome_lookup_iff {entries : List (String × Nat)} {name : String} :
    (entries.lookup name).isSome ↔ name ∈ entries.map Prod.fst := by
  rw [List.lookup_isSome_iff, List.mem_map]
  simp only [beq_iff_eq, eq_comm (a := name)]

theorem Records.mem_names_iff (records : Records calls table) {name : String} :
    name ∈ table.entries.map Prod.fst ↔ name ∈ calls.map Prod.fst := by
  rw [← isSome_lookup_iff, ← isSome_lookup_iff, ← records.found]
  rfl

theorem insert_of_known (records : Records calls table) {name : String}
    (known : name ∈ calls.map Prod.fst) (address : Nat) :
    table.insert name address = .error (.labelRedefinition name) := by
  have found : (table.find? name).isSome := by
    rw [records.found]
    exact isSome_lookup_iff.2 known
  rw [insert, if_pos found]

theorem insert_of_new (records : Records calls table) {name : String}
    (new : name ∉ calls.map Prod.fst) (address : Nat) :
    table.insert name address = .ok ⟨table.entries ++ [(name, address)]⟩ := by
  have missing : ¬(table.find? name).isSome := by
    rw [records.found]
    exact mt isSome_lookup_iff.1 new
  rw [insert, if_neg missing]

theorem call_of_known (records : Records calls table) {name : String}
    (known : name ∈ calls.map Prod.fst) (address : Nat) : table.call name address = table := by
  rw [call, insert_of_known records known]

theorem call_of_new (records : Records calls table) {name : String}
    (new : name ∉ calls.map Prod.fst) (address : Nat) :
    table.call name address = ⟨table.entries ++ [(name, address)]⟩ := by
  rw [call, insert_of_new records new]

/-- A call keeps to what has been recorded. -/
theorem Records.call (records : Records calls table) (name : String) (address : Nat) :
    Records (calls ++ [(name, address)]) (table.call name address) := by
  by_cases known : name ∈ calls.map Prod.fst
  · rw [call_of_known records known]
    refine ⟨?_, records.distinct⟩
    intro other
    rw [records.found, List.lookup_append]
    by_cases same : other = name
    · have found : (calls.lookup other).isSome := isSome_lookup_iff.2 (same ▸ known)
      rw [Option.or_of_isSome found]
    · rw [List.lookup_cons, beq_false_of_ne same, List.lookup_nil, Option.or_none]
  · rw [call_of_new records known]
    constructor
    · intro other
      rw [List.lookup_append, ← records.found]
      exact List.lookup_append
    · rw [List.map_append, List.nodup_append]
      refine ⟨records.distinct, List.nodup_singleton name, ?_⟩
      rintro first among second last same
      rw [same, List.mem_singleton.1 last] at among
      exact known (records.mem_names_iff.1 among)

theorem records_ofCalls (calls : List (String × Nat)) : Records calls (ofCalls calls) := by
  induction calls using List.reverseRecOn with
  | nil => exact ⟨fun _ => rfl, List.nodup_nil⟩
  | append_singleton calls last ih =>
    rw [ofCalls_append]
    exact ih.call last.1 last.2

theorem size_of_records (records : Records calls table) :
    table.size = (calls.map Prod.fst).dedup.length := by
  have same : (table.entries.map Prod.fst).Perm (calls.map Prod.fst).dedup := by
    rw [List.perm_ext_iff_of_nodup records.distinct (List.nodup_dedup _)]
    intro name
    rw [records.mem_names_iff, List.mem_dedup]
  rw [size, ← same.length_eq, List.length_map]

/-- Calls with different names are recorded as they are. -/
theorem entries_ofCalls (distinct : (calls.map Prod.fst).Nodup) :
    (ofCalls calls).entries = calls := by
  induction calls using List.reverseRecOn with
  | nil => rfl
  | append_singleton calls last ih =>
    rw [List.map_append, List.nodup_append] at distinct
    obtain ⟨others, -, apart⟩ := distinct
    have new : last.1 ∉ calls.map Prod.fst := fun known =>
      apart _ known _ (List.mem_singleton_self _) rfl
    rw [ofCalls_append, call_of_new (records_ofCalls calls) new, ih others]

end

/-! ## Groups -/

/-- The names and their addresses in a table that is shown address by address. -/
def pairs (groups : List (Nat × List String)) : List (String × Nat) :=
  groups.flatMap fun group => group.2.map fun name => (name, group.1)

/-- A table that is shown address by address: the addresses are in ascending order, each of them
with at least one name and with its names in the ascending order of their bytes, and each name is
shown once, at its address. -/
structure Indexes (table : LabelTable) (groups : List (Nat × List String)) : Prop where
  ascending : (groups.map Prod.fst).Pairwise (· < ·)
  filled : ∀ group ∈ groups, group.2 ≠ []
  sorted : ∀ group ∈ groups, group.2.Pairwise fun a b => Text.bytes a < Text.bytes b
  once : (pairs groups).Nodup
  complete : ∀ name address, (name, address) ∈ pairs groups ↔ table.address name = .ok address

theorem nodup_eraseDups (list : List Nat) : list.eraseDups.Nodup := by
  induction h : list.length using Nat.strongRecOn generalizing list with
  | ind n ih =>
    cases list with
    | nil => exact List.nodup_nil
    | cons a list =>
      rw [List.eraseDups_cons, List.nodup_cons, List.mem_eraseDups]
      refine ⟨by simp, ih _ ?_ _ rfl⟩
      rw [← h, List.length_cons]
      exact Nat.lt_succ_of_le (List.length_filter_le _ _)

section

variable {table left right : LabelTable}

theorem mem_addresses {address : Nat} :
    address ∈ table.addresses ↔ ∃ name, (name, address) ∈ table.entries := by
  rw [addresses, List.mem_mergeSort, List.mem_eraseDups, List.mem_map]
  constructor
  · rintro ⟨⟨name, address⟩, among, rfl⟩
    exact ⟨name, among⟩
  · rintro ⟨name, among⟩
    exact ⟨_, among, rfl⟩

theorem mem_labelsAt {name : String} {address : Nat} :
    name ∈ table.labelsAt address ↔ (name, address) ∈ table.entries := by
  rw [labelsAt, List.mem_mergeSort, List.mem_map]
  constructor
  · rintro ⟨⟨name, place⟩, among, rfl⟩
    rw [List.mem_filter, beq_iff_eq] at among
    obtain ⟨among, rfl⟩ := among
    exact among
  · intro among
    exact ⟨_, List.mem_filter.2 ⟨among, beq_self_eq_true address⟩, rfl⟩

theorem ascending_addresses (table : LabelTable) : table.addresses.Pairwise (· < ·) := by
  have sorted : table.addresses.Pairwise fun a b => decide (a ≤ b) = true :=
    List.pairwise_mergeSort (by simpa using fun a b c => Nat.le_trans)
      (by simpa using Nat.le_total) _
  have once : table.addresses.Nodup :=
    (List.mergeSort_perm _ _).nodup_iff.2 (nodup_eraseDups _)
  refine (sorted.and once).imp ?_
  rintro a b ⟨le, ne⟩
  exact Nat.lt_of_le_of_ne (of_decide_eq_true le) ne

theorem sorted_labelsAt (table : LabelTable) (address : Nat) :
    (table.labelsAt address).Pairwise (· ≤ ·) := by
  have sorted : (table.labelsAt address).Pairwise fun a b => decide (a ≤ b) = true :=
    List.pairwise_mergeSort (by simpa using fun a b c => String.le_trans)
      (by simpa using String.le_total) _
  exact sorted.imp of_decide_eq_true

theorem nodup_labelsAt (distinct : (table.entries.map Prod.fst).Nodup) (address : Nat) :
    (table.labelsAt address).Nodup :=
  (List.mergeSort_perm _ _).nodup_iff.2 (distinct.sublist (List.filter_sublist.map _))

theorem ascending_labelsAt (distinct : (table.entries.map Prod.fst).Nodup) (address : Nat) :
    (table.labelsAt address).Pairwise fun a b => Text.bytes a < Text.bytes b := by
  refine ((sorted_labelsAt table address).and (nodup_labelsAt distinct address)).imp ?_
  rintro a b ⟨le, ne⟩
  have lt : a < b := Decidable.not_not.1 fun above =>
    ne (String.le_antisymm le (String.not_lt.1 above))
  exact Text.bytes_lt lt

theorem pairs_byAddress (table : LabelTable) :
    pairs table.byAddress = table.addresses.flatMap fun address =>
      (table.labelsAt address).map fun name => (name, address) := by
  rw [pairs, byAddress, List.flatMap_map]

theorem mem_pairs_byAddress {name : String} {address : Nat} :
    (name, address) ∈ pairs table.byAddress ↔ (name, address) ∈ table.entries := by
  simp only [pairs_byAddress, List.mem_flatMap, List.mem_map, Prod.mk.injEq]
  constructor
  · rintro ⟨place, -, label, among, rfl, rfl⟩
    exact mem_labelsAt.1 among
  · intro among
    exact ⟨address, mem_addresses.2 ⟨name, among⟩, name, mem_labelsAt.2 among, rfl, rfl⟩

theorem nodup_pairs_byAddress (distinct : (table.entries.map Prod.fst).Nodup) :
    (pairs table.byAddress).Nodup := by
  rw [pairs_byAddress, List.nodup_flatMap]
  constructor
  · intro address _
    exact (nodup_labelsAt distinct address).map fun _ _ same => (Prod.mk.inj same).1
  · refine (ascending_addresses table).imp ?_
    rintro first second below ⟨name, address⟩ inFirst inSecond
    obtain ⟨_, -, here⟩ := List.mem_map.1 inFirst
    obtain ⟨_, -, there⟩ := List.mem_map.1 inSecond
    have same : first = second := (congrArg Prod.snd here).trans (congrArg Prod.snd there).symm
    exact Nat.ne_of_lt below same

theorem mem_of_find? {name : String} {address : Nat} (found : table.find? name = some address) :
    (name, address) ∈ table.entries := by
  obtain ⟨before, behind, entries, -⟩ := List.lookup_eq_some_iff.1 found
  rw [entries]
  exact List.mem_append_right _ List.mem_cons_self

theorem address_eq_ok_iff (distinct : (table.entries.map Prod.fst).Nodup) {name : String}
    {address : Nat} : table.address name = .ok address ↔ (name, address) ∈ table.entries := by
  unfold LabelTable.address
  constructor
  · intro found
    split at found
    · next place entry =>
      cases found
      exact mem_of_find? entry
    · cases found
  · intro among
    have present : (table.find? name).isSome :=
      isSome_lookup_iff.2 (List.mem_map.2 ⟨_, among, rfl⟩)
    obtain ⟨place, found⟩ := Option.isSome_iff_exists.1 present
    have same := List.inj_on_of_nodup_map distinct (mem_of_find? found) among rfl
    simp only [found, (Prod.mk.inj same).2]

theorem indexes_byAddress (distinct : (table.entries.map Prod.fst).Nodup) :
    Indexes table table.byAddress where
  ascending := by
    have addresses : table.byAddress.map Prod.fst = table.addresses := by
      rw [byAddress, List.map_map]
      exact List.map_id _
    rw [addresses]
    exact ascending_addresses table
  filled := by
    intro group among
    obtain ⟨address, present, rfl⟩ := List.mem_map.1 among
    obtain ⟨name, entered⟩ := mem_addresses.1 present
    exact List.ne_nil_of_mem (mem_labelsAt.2 entered)
  sorted := by
    intro group among
    obtain ⟨address, -, rfl⟩ := List.mem_map.1 among
    exact ascending_labelsAt distinct address
  once := nodup_pairs_byAddress distinct
  complete := by
    intro name address
    rw [mem_pairs_byAddress, address_eq_ok_iff distinct]

/-! ## The order of the names -/

theorem addresses_of_perm (same : left.entries.Perm right.entries) :
    left.addresses = right.addresses := by
  have perm : left.addresses.Perm right.addresses := by
    rw [List.perm_ext_iff_of_nodup ((ascending_addresses left).imp Nat.ne_of_lt)
      ((ascending_addresses right).imp Nat.ne_of_lt)]
    intro address
    simp only [mem_addresses, same.mem_iff]
  exact perm.eq_of_pairwise (fun a b _ _ below above => absurd above (Nat.lt_asymm below))
    (ascending_addresses left) (ascending_addresses right)

theorem labelsAt_of_perm (same : left.entries.Perm right.entries) (address : Nat) :
    left.labelsAt address = right.labelsAt address := by
  have perm : (left.labelsAt address).Perm (right.labelsAt address) :=
    ((List.mergeSort_perm _ _).trans ((same.filter _).map _)).trans (List.mergeSort_perm _ _).symm
  exact perm.eq_of_pairwise (fun a b _ _ => String.le_antisymm) (sorted_labelsAt left address)
    (sorted_labelsAt right address)

/-- A table is shown in one way, whatever the order of its entries is. -/
theorem byAddress_of_perm (same : left.entries.Perm right.entries) :
    left.byAddress = right.byAddress := by
  rw [byAddress, byAddress, addresses_of_perm same]
  exact List.map_congr_left fun address _ => by rw [labelsAt_of_perm same address]

end

/-! ## Any sequence of calls -/

/-- A table answers with the first address that was entered for a name. A call fails when its name
has been entered before, and then leaves the table as it is; otherwise the table has one label more.
The size counts the different names. The table is shown address by address with each of its labels
once, and in one way for all orders of its entries and of calls with different names. -/
theorem first_call_counts :
    (∀ (calls : List (String × Nat)) (name : String) (address : Nat),
      (name ∈ calls.map Prod.fst →
        (ofCalls calls).insert name address = .error (.labelRedefinition name) ∧
          ofCalls (calls ++ [(name, address)]) = ofCalls calls) ∧
      (name ∉ calls.map Prod.fst →
        (ofCalls calls).insert name address = .ok (ofCalls (calls ++ [(name, address)])))) ∧
    (∀ calls : List (String × Nat),
      (ofCalls calls).size = (calls.map Prod.fst).dedup.length) ∧
    (∀ (calls : List (String × Nat)) (name : String),
      (ofCalls calls).address name = match calls.lookup name with
        | some address => .ok address
        | none => .error (.undefinedLabel name)) ∧
    (∀ calls : List (String × Nat), Indexes (ofCalls calls) (ofCalls calls).byAddress) ∧
    (∀ calls order : List (String × Nat), order.Perm (ofCalls calls).entries →
      byAddress ⟨order⟩ = (ofCalls calls).byAddress) ∧
    ∀ calls other : List (String × Nat), calls.Perm other → (calls.map Prod.fst).Nodup →
      (ofCalls calls).byAddress = (ofCalls other).byAddress := by
  refine ⟨?calls, fun calls => size_of_records (records_ofCalls calls), ?addresses,
    fun calls => indexes_byAddress (records_ofCalls calls).distinct,
    fun calls order same => byAddress_of_perm same, ?orders⟩
  case calls =>
    intro calls name address
    have records := records_ofCalls calls
    rw [ofCalls_append]
    constructor
    · intro known
      exact ⟨insert_of_known records known address, call_of_known records known address⟩
    · intro new
      rw [call_of_new records new]
      exact insert_of_new records new address
  case addresses =>
    intro calls name
    have found := (records_ofCalls calls).found name
    unfold address
    cases first : calls.lookup name with
    | none => simp only [found, first]
    | some place => simp only [found, first]
  case orders =>
    intro calls other same distinct
    have distinct' : (other.map Prod.fst).Nodup := (same.map _).nodup_iff.1 distinct
    apply byAddress_of_perm
    rw [entries_ofCalls distinct, entries_ofCalls distinct']
    exact same

/-- Two names at one address, in either order. -/
theorem first_call_counts_two_names :
    (ofCalls [("b", 1), ("a", 1)]).insert "b" 5 = .error (.labelRedefinition "b") ∧
    (ofCalls [("b", 1), ("a", 1)]).insert "c" 2 = .ok (ofCalls [("b", 1), ("a", 1), ("c", 2)]) ∧
    byAddress ⟨[("a", 1), ("b", 1)]⟩ = (ofCalls [("b", 1), ("a", 1)]).byAddress ∧
    (ofCalls [("b", 1), ("a", 1)]).byAddress = (ofCalls [("a", 1), ("b", 1)]).byAddress := by
  obtain ⟨calls, -, -, -, entries, orders⟩ := first_call_counts
  refine ⟨?_, ?_, ?_, ?_⟩
  · exact ((calls [("b", 1), ("a", 1)] "b" 5).1 (by decide)).1
  · exact (calls [("b", 1), ("a", 1)] "c" 2).2 (by decide)
  · exact entries [("b", 1), ("a", 1)] _ (List.Perm.swap _ _ _)
  · exact orders _ _ (List.Perm.swap _ _ _) (by decide)

end TickMachine.LabelTable
