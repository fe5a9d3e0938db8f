import LayeredTable.OrderedMap

/-! Ordered maps seen through their lookups: what each operation does to `get?`, which entries and
keys a map has, and that a map is determined by its lookups. -/
namespace LayeredTable

variable {κ α β : Type}

section Entries

variable [DecidableEq κ]

theorem lookupEntry_eq_none_iff {key : κ} {entries : List (κ × α)} :
    lookupEntry key entries = none ↔ ∀ entry ∈ entries, key ≠ entry.1 := by
  induction entries with
  | nil => simp [lookupEntry]
  | cons head rest ih =>
    rw [lookupEntry]
    split <;> simp_all

theorem lookupEntry_append (key : κ) (front back : List (κ × α)) :
    lookupEntry key (front ++ back) = (lookupEntry key front).or (lookupEntry key back) := by
  induction front with
  | nil => rfl
  | cons head rest ih =>
    rw [List.cons_append, lookupEntry, lookupEntry]
    split <;> simp_all

theorem lookupEntry_map (f : α → β) (key : κ) (entries : List (κ × α)) :
    lookupEntry key (entries.map fun entry => (entry.1, f entry.2)) =
      (lookupEntry key entries).map f := by
  induction entries with
  | nil => rfl
  | cons head rest ih =>
    rw [List.map_cons, lookupEntry, lookupEntry]
    split <;> simp_all

theorem mem_of_lookupEntry {key : κ} {value : α} {entries : List (κ × α)}
    (found : lookupEntry key entries = some value) : (key, value) ∈ entries := by
  induction entries with
  | nil => simp [lookupEntry] at found
  | cons head rest ih =>
    rw [lookupEntry] at found
    split at found
    · rename_i same
      have : head = (key, value) := Prod.ext same.symm (Option.some.inj found)
      simp [this]
    · exact List.mem_cons_of_mem _ (ih found)

theorem lookupEntry_insertEntry [LT κ] [DecidableLT κ] (other key : κ) (value : α)
    (entries : List (κ × α)) :
    lookupEntry other (insertEntry key value entries) =
      if other = key then some value else lookupEntry other entries := by
  induction entries with
  | nil => rfl
  | cons head rest ih =>
    rw [insertEntry]
    split
    · rfl
    · split
      · rename_i same
        simp only [lookupEntry, same]
        split <;> rfl
      · rename_i different
        simp only [lookupEntry, ih]
        by_cases here : other = head.1
        · have : head.1 ≠ key := fun same => different same.symm
          simp [here, this]
        · simp [here]

theorem lookupEntry_of_mem [LT κ] [LE κ] [Std.IsPreorder κ] [Std.LawfulOrderLT κ] {key : κ}
    {value : α} {entries : List (κ × α)} (ascending : Ascending entries)
    (member : (key, value) ∈ entries) : lookupEntry key entries = some value := by
  induction entries with
  | nil => cases member
  | cons head rest ih =>
    obtain ⟨below, tail⟩ := List.pairwise_cons.mp ascending
    rw [lookupEntry]
    rcases List.mem_cons.mp member with rfl | member
    · simp
    · have less : head.1 < key := below _ member
      have different : key ≠ head.1 := by
        rintro rfl
        exact Std.lt_irrefl less
      simp [different, ih tail member]

end Entries

/-- Ascending lists with the same members are the same list. -/
theorem Ascending.eq_of_mem_iff [LT κ] [LE κ] [Std.IsPreorder κ] [Std.LawfulOrderLT κ]
    {entries others : List (κ × α)} (first : Ascending entries) (second : Ascending others)
    (members : ∀ entry, entry ∈ entries ↔ entry ∈ others) : entries = others := by
  induction entries generalizing others with
  | nil =>
    cases others with
    | nil => rfl
    | cons head rest => exact absurd ((members head).mpr (by simp)) (by simp)
  | cons head rest ih =>
    cases others with
    | nil => exact absurd ((members head).mp (by simp)) (by simp)
    | cons head' rest' =>
      obtain ⟨below, tail⟩ := List.pairwise_cons.mp first
      obtain ⟨below', tail'⟩ := List.pairwise_cons.mp second
      have heads : head = head' := by
        rcases List.mem_cons.mp ((members head).mp (by simp)) with same | later'
        · exact same
        · rcases List.mem_cons.mp ((members head').mpr (by simp)) with same | later
          · exact same.symm
          · exact absurd (Std.lt_trans (below _ later) (below' _ later')) Std.lt_irrefl
      subst heads
      congr 1
      refine ih tail tail' fun entry => ⟨fun member => ?_, fun member => ?_⟩
      · rcases List.mem_cons.mp ((members entry).mp (List.mem_cons_of_mem _ member)) with
          rfl | there
        · exact absurd (below _ member) Std.lt_irrefl
        · exact there
      · rcases List.mem_cons.mp ((members entry).mpr (List.mem_cons_of_mem _ member)) with
          rfl | there
        · exact absurd (below' _ member) Std.lt_irrefl
        · exact there

namespace OrderedMap

variable [LT κ]

@[simp] theorem keys_map (f : α → β) (m : OrderedMap κ α) : (m.map f).keys = m.keys := by
  simp [keys, map]

theorem keys_ascending (m : OrderedMap κ α) : m.keys.Pairwise (· < ·) :=
  List.pairwise_map.mpr m.ascending

variable [DecidableEq κ]

@[simp] theorem get?_empty (key : κ) : (empty : OrderedMap κ α).get? key = none := rfl

@[simp] theorem get?_map (f : α → β) (m : OrderedMap κ α) (key : κ) :
    (m.map f).get? key = (m.get? key).map f := lookupEntry_map f key m.entries

theorem isEmpty_iff (m : OrderedMap κ α) : m.isEmpty = true ↔ ∀ key, m.get? key = none := by
  constructor
  · intro none
    have nil : m.entries = [] := List.isEmpty_iff.mp none
    simp [get?, nil, lookupEntry]
  · intro none
    cases same : m.entries with
    | nil => simp [isEmpty, same]
    | cons head rest =>
      have found := none head.1
      simp [get?, same, lookupEntry] at found

theorem mem_keys_iff {m : OrderedMap κ α} {key : κ} : key ∈ m.keys ↔ (m.get? key).isSome := by
  rw [← Option.ne_none_iff_isSome, Ne, get?, lookupEntry_eq_none_iff]
  simp only [keys, List.mem_map]
  constructor
  · rintro ⟨entry, member, rfl⟩ different
    exact different entry member rfl
  · intro found
    simp only [Classical.not_forall, Classical.not_not] at found
    obtain ⟨entry, member, same⟩ := found
    exact ⟨entry, member, same.symm⟩

theorem contains_iff_mem_keys {m : OrderedMap κ α} {key : κ} :
    m.contains key = true ↔ key ∈ m.keys := by
  rw [contains, mem_keys_iff]

theorem mem_keys_of_get? {m : OrderedMap κ α} {key : κ} {value : α}
    (found : m.get? key = some value) : key ∈ m.keys :=
  mem_keys_iff.mpr (Option.isSome_iff_exists.mpr ⟨value, found⟩)

theorem exists_get?_of_mem_keys {m : OrderedMap κ α} {key : κ} (member : key ∈ m.keys) :
    ∃ value, m.get? key = some value := Option.isSome_iff_exists.mp (mem_keys_iff.mp member)

section Insert

variable [DecidableLT κ] [LE κ] [Std.IsLinearOrder κ] [Std.LawfulOrderLT κ]

@[simp] theorem get?_insert (m : OrderedMap κ α) (key other : κ) (value : α) :
    (m.insert key value).get? other = if other = key then some value else m.get? other :=
  lookupEntry_insertEntry other key value m.entries

theorem mem_keys_insert {m : OrderedMap κ α} {key other : κ} {value : α} :
    other ∈ (m.insert key value).keys ↔ other = key ∨ other ∈ m.keys := by
  rw [mem_keys_iff, get?_insert, mem_keys_iff]
  split <;> simp_all

theorem get?_foldl_insert (m : OrderedMap κ α) (entries : List (κ × α)) (key : κ) :
    (entries.foldl (fun m entry => m.insert entry.1 entry.2) m).get? key =
      (lookupEntry key entries.reverse).or (m.get? key) := by
  induction entries generalizing m with
  | nil => simp [lookupEntry]
  | cons head rest ih =>
    rw [List.foldl_cons, ih, get?_insert, List.reverse_cons, lookupEntry_append]
    cases lookupEntry key rest.reverse
    · simp only [lookupEntry, Option.none_or]
      split <;> rfl
    · rfl

/-- Of entries with one key the last is found. -/
theorem get?_ofList (entries : List (κ × α)) (key : κ) :
    (ofList entries).get? key = lookupEntry key entries.reverse := by
  simp [ofList, get?_foldl_insert]

theorem mem_keys_ofList {entries : List (κ × α)} {key : κ} :
    key ∈ (ofList entries).keys ↔ key ∈ entries.map (·.1) := by
  rw [mem_keys_iff, get?_ofList, ← Option.ne_none_iff_isSome, Ne, lookupEntry_eq_none_iff]
  simp [eq_comm]

/-- Of entries with one value for each key every one is found. -/
theorem get?_ofList_eq_some_iff {entries : List (κ × α)} {key : κ} {value : α}
    (single : ∀ {key : κ} {value value' : α}, (key, value) ∈ entries → (key, value') ∈ entries →
      value' = value) : (ofList entries).get? key = some value ↔ (key, value) ∈ entries := by
  rw [get?_ofList]
  constructor
  · intro found
    exact List.mem_reverse.mp (mem_of_lookupEntry found)
  · intro member
    cases found : lookupEntry key entries.reverse with
    | none =>
      rw [lookupEntry_eq_none_iff] at found
      exact absurd rfl (found _ (List.mem_reverse.mpr member))
    | some value' => rw [single member (List.mem_reverse.mp (mem_of_lookupEntry found))]

end Insert

section Members

variable [LE κ] [Std.IsPreorder κ] [Std.LawfulOrderLT κ]

theorem mem_entries_iff {m : OrderedMap κ α} {key : κ} {value : α} :
    (key, value) ∈ m.entries ↔ m.get? key = some value :=
  ⟨lookupEntry_of_mem m.ascending, mem_of_lookupEntry⟩

theorem mem_values_of_get? {m : OrderedMap κ α} {key : κ} {value : α}
    (found : m.get? key = some value) : value ∈ m.values :=
  List.mem_map.mpr ⟨(key, value), mem_entries_iff.mpr found, rfl⟩

theorem exists_get?_of_mem_values {m : OrderedMap κ α} {value : α} (member : value ∈ m.values) :
    ∃ key, m.get? key = some value := by
  obtain ⟨⟨key, _⟩, entry, rfl⟩ := List.mem_map.mp member
  exact ⟨key, mem_entries_iff.mp entry⟩

/-- A map is determined by its lookups. -/
theorem ext_get? {m n : OrderedMap κ α} (same : ∀ key, m.get? key = n.get? key) : m = n := by
  have lists : m.entries = n.entries := m.ascending.eq_of_mem_iff n.ascending fun (key, value) => by
    rw [mem_entries_iff, same, mem_entries_iff]
  cases m
  cases n
  cases lists
  rfl

theorem entries_single (m : OrderedMap κ α) {key : κ} {value value' : α}
    (member : (key, value) ∈ m.entries) (member' : (key, value') ∈ m.entries) :
    value' = value := by
  rw [mem_entries_iff] at member member'
  rw [member] at member'
  exact (Option.some.inj member').symm

end Members

section Listed

variable [DecidableLT κ] [LE κ] [Std.IsLinearOrder κ] [Std.LawfulOrderLT κ]

/-- A map is the map of its entries. -/
theorem ofList_entries (m : OrderedMap κ α) : ofList m.entries = m := by
  refine ext_get? fun key => Option.ext fun value => ?_
  rw [get?_ofList_eq_some_iff m.entries_single, mem_entries_iff]

theorem map_ofList (f : α → β) (entries : List (κ × α)) :
    (ofList entries).map f = ofList (entries.map fun entry => (entry.1, f entry.2)) := by
  refine ext_get? fun key => ?_
  rw [get?_map, get?_ofList, get?_ofList, ← List.map_reverse, lookupEntry_map]

/-- With one value for each key neither order nor repetition of entries matters. -/
theorem ofList_congr {entries others : List (κ × α)}
    (same : ∀ entry, entry ∈ entries ↔ entry ∈ others)
    (single : ∀ {key : κ} {value value' : α}, (key, value) ∈ others → (key, value') ∈ others →
      value' = value) : ofList entries = ofList others := by
  refine ext_get? fun key => Option.ext fun value => ?_
  rw [get?_ofList_eq_some_iff single, ← same, get?_ofList_eq_some_iff]
  intro key value value' member member'
  exact single ((same _).mp member) ((same _).mp member')

/-- Maps of values computed for some keys are equal if they are for the same keys and the values
are equal there. -/
theorem ofList_tabulate_congr {keys others : List κ} {f g : κ → α}
    (same : ∀ key, key ∈ keys ↔ key ∈ others) (values : ∀ key ∈ keys, f key = g key) :
    ofList (keys.map fun key => (key, f key)) = ofList (others.map fun key => (key, g key)) := by
  refine ofList_congr (fun entry => ⟨fun member => ?_, fun member => ?_⟩) ?_
  · obtain ⟨key, listed, rfl⟩ := List.mem_map.mp member
    rw [values key listed]
    exact List.mem_map.mpr ⟨key, (same key).mp listed, rfl⟩
  · obtain ⟨key, listed, rfl⟩ := List.mem_map.mp member
    rw [← values key ((same key).mpr listed)]
    exact List.mem_map.mpr ⟨key, (same key).mpr listed, rfl⟩
  · intro key value value' member member'
    obtain ⟨_, -, first⟩ := List.mem_map.mp member
    obtain ⟨_, -, second⟩ := List.mem_map.mp member'
    cases first
    cases second
    rfl

end Listed

end OrderedMap
end LayeredTable
