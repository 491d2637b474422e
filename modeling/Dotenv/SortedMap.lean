/-!
# Sorted maps

A finite map is kept as the list of its entries in strictly increasing key
order.  The order is part of the type: listing a map needs no sorting, and two
maps that answer every lookup alike are equal.
-/

namespace Dotenv

/-- A finite map whose entries stand in strictly increasing key order. -/
structure SortedMap (Key Value : Type) [Ord Key] where
  entries : List (Key × Value)
  increasing : entries.Pairwise
    fun earlier later => compare earlier.1 later.1 = .lt

namespace SortedMap

variable {Key Value : Type} [Ord Key]

def empty : SortedMap Key Value := ⟨[], .nil⟩

instance : Inhabited (SortedMap Key Value) := ⟨empty⟩

/-- Put an entry at its place in an increasing list, replacing an entry of the
same key. -/
def insertEntry (key : Key) (value : Value) :
    List (Key × Value) → List (Key × Value)
  | [] => [(key, value)]
  | entry :: rest =>
    match compare key entry.1 with
    | .lt => (key, value) :: entry :: rest
    | .eq => (key, value) :: rest
    | .gt => entry :: insertEntry key value rest

theorem mem_of_mem_insertEntry {key : Key} {value : Value}
    {candidate : Key × Value} {entries : List (Key × Value)}
    (member : candidate ∈ insertEntry key value entries) :
    candidate = (key, value) ∨ candidate ∈ entries := by
  induction entries with
  | nil => simpa [insertEntry] using member
  | cons entry rest ih =>
    unfold insertEntry at member
    split at member
    · simpa using member
    · simp only [List.mem_cons] at member
      rcases member with equal | member
      · exact .inl equal
      · exact .inr (List.mem_cons_of_mem _ member)
    · simp only [List.mem_cons] at member
      rcases member with equal | member
      · exact .inr (equal ▸ List.mem_cons_self)
      · rcases ih member with equal | member
        · exact .inl equal
        · exact .inr (List.mem_cons_of_mem _ member)

section Lawful

variable [Std.TransOrd Key] [Std.LawfulEqOrd Key]

theorem increasing_insertEntry (key : Key) (value : Value)
    {entries : List (Key × Value)}
    (increasing : entries.Pairwise
      fun earlier later => compare earlier.1 later.1 = .lt) :
    (insertEntry key value entries).Pairwise
      fun earlier later => compare earlier.1 later.1 = .lt := by
  induction entries with
  | nil => simp [insertEntry]
  | cons entry rest ih =>
    have after : ∀ candidate ∈ rest, compare entry.1 candidate.1 = .lt :=
      fun _ member => List.rel_of_pairwise_cons increasing member
    have restIncreasing := increasing.of_cons
    unfold insertEntry
    split
    · rename_i less
      refine increasing.cons fun candidate member => ?_
      rcases List.mem_cons.mp member with equal | member
      · exact equal ▸ less
      · exact Std.TransCmp.lt_trans less (after candidate member)
    · rename_i same
      have keyEqual : key = entry.1 := Std.LawfulEqCmp.eq_of_compare same
      refine restIncreasing.cons fun candidate member => ?_
      simpa [keyEqual] using after candidate member
    · rename_i greater
      refine (ih restIncreasing).cons fun candidate member => ?_
      rcases mem_of_mem_insertEntry member with equal | member
      · subst equal
        exact Std.OrientedCmp.lt_of_gt greater
      · exact after candidate member

/-- Bind a key to a value, in place of the value it was bound to. -/
def insert (map : SortedMap Key Value) (key : Key) (value : Value) :
    SortedMap Key Value :=
  ⟨insertEntry key value map.entries, increasing_insertEntry key value map.increasing⟩

/-- Insert the pairs in order, so the last pair of a key wins. -/
def ofList (pairs : List (Key × Value)) : SortedMap Key Value :=
  pairs.foldl (fun map pair => map.insert pair.1 pair.2) empty

end Lawful

def keys (map : SortedMap Key Value) : List Key := map.entries.map Prod.fst

def size (map : SortedMap Key Value) : Nat := map.entries.length

theorem increasing_keys (map : SortedMap Key Value) :
    map.keys.Pairwise fun earlier later => compare earlier later = .lt := by
  rw [keys, List.pairwise_map]
  exact map.increasing

theorem nodup_keys [Std.ReflOrd Key] (map : SortedMap Key Value) : map.keys.Nodup := by
  rw [List.nodup_iff_pairwise_ne]
  refine map.increasing_keys.imp ?_
  intro earlier later less equal
  have self : compare later later = .eq := Std.ReflCmp.compare_self
  rw [equal, self] at less
  cases less

@[simp]
theorem entries_empty : (empty : SortedMap Key Value).entries = [] := rfl

section Lookup

variable [DecidableEq Key]

/-- The value of the first entry with a given key. -/
def lookupEntry (wanted : Key) : List (Key × Value) → Option Value
  | [] => none
  | entry :: rest =>
    if wanted = entry.1 then some entry.2 else lookupEntry wanted rest

/-- The value that a key is bound to. -/
def get? (map : SortedMap Key Value) (key : Key) : Option Value :=
  lookupEntry key map.entries

def contains (map : SortedMap Key Value) (key : Key) : Bool :=
  (map.get? key).isSome

/-- Unbind a key. -/
def erase (map : SortedMap Key Value) (key : Key) : SortedMap Key Value :=
  ⟨map.entries.filter fun entry => entry.1 ≠ key, map.increasing.filter _⟩

@[simp]
theorem get?_empty (key : Key) : (empty : SortedMap Key Value).get? key = none := rfl

end Lookup

instance [DecidableEq Key] [DecidableEq Value] : DecidableEq (SortedMap Key Value) :=
  fun first second =>
    if equal : first.entries = second.entries then
      .isTrue (by cases first; cases second; cases equal; rfl)
    else
      .isFalse fun same => equal (congrArg entries same)

section LawfulLookup

variable [DecidableEq Key]

theorem lookupEntry_insertEntry [Std.LawfulEqOrd Key] (key : Key) (value : Value) (wanted : Key)
    (entries : List (Key × Value)) :
    lookupEntry wanted (insertEntry key value entries) =
      if wanted = key then some value else lookupEntry wanted entries := by
  induction entries with
  | nil => simp [insertEntry, lookupEntry]
  | cons entry rest ih =>
    unfold insertEntry
    split
    · simp [lookupEntry]
    · rename_i same
      have keyEqual : key = entry.1 := Std.LawfulEqCmp.eq_of_compare same
      by_cases equal : wanted = key <;> simp [lookupEntry, equal, ← keyEqual]
    · rename_i greater
      have keyNe : key ≠ entry.1 := by
        intro equal
        have self : compare entry.1 entry.1 = .eq := Std.ReflCmp.compare_self
        rw [equal, self] at greater
        cases greater
      by_cases headEqual : wanted = entry.1
      · simp [lookupEntry, headEqual, Ne.symm keyNe]
      · simp [lookupEntry, headEqual, ih]

theorem lookupEntry_eq_none_of_below [Std.TransOrd Key] {key : Key}
    {entries : List (Key × Value)}
    (below : ∀ entry ∈ entries, compare key entry.1 = .lt) :
    lookupEntry key entries = none := by
  induction entries with
  | nil => rfl
  | cons entry rest ih =>
    have different : key ≠ entry.1 := by
      intro equal
      have less := below entry List.mem_cons_self
      have self : compare entry.1 entry.1 = .eq := Std.ReflCmp.compare_self
      rw [equal, self] at less
      cases less
    simp only [lookupEntry, different, if_false]
    exact ih fun candidate member =>
      below candidate (List.mem_cons_of_mem _ member)

omit [Ord Key] in
theorem lookupEntry_filter (key wanted : Key) (entries : List (Key × Value)) :
    lookupEntry wanted (entries.filter fun entry => entry.1 ≠ key) =
      if wanted = key then none else lookupEntry wanted entries := by
  induction entries with
  | nil => simp [lookupEntry]
  | cons entry rest ih =>
    by_cases erased : entry.1 = key
    · rw [List.filter_cons_of_neg (by simp [erased]), ih, lookupEntry, erased]
      split <;> rfl
    · rw [List.filter_cons_of_pos (by simp [erased]), lookupEntry, lookupEntry, ih]
      by_cases equal : wanted = entry.1
      · rw [if_pos equal, if_pos equal, if_neg (equal ▸ erased)]
      · rw [if_neg equal, if_neg equal]

@[simp]
theorem get?_erase (map : SortedMap Key Value) (key wanted : Key) :
    (map.erase key).get? wanted = if wanted = key then none else map.get? wanted :=
  lookupEntry_filter key wanted map.entries

omit [Ord Key] in
theorem mem_of_lookupEntry {key : Key} {value : Value} {entries : List (Key × Value)}
    (found : lookupEntry key entries = some value) : (key, value) ∈ entries := by
  induction entries with
  | nil => cases found
  | cons entry rest ih =>
    rw [lookupEntry] at found
    split at found
    · rename_i equal
      cases found
      rw [equal]
      exact List.mem_cons_self
    · exact List.mem_cons_of_mem _ (ih found)

omit [Ord Key] in
theorem lookupEntry_of_mem {entry : Key × Value} {entries : List (Key × Value)}
    (distinct : (entries.map Prod.fst).Nodup) (member : entry ∈ entries) :
    lookupEntry entry.1 entries = some entry.2 := by
  induction entries with
  | nil => cases member
  | cons head rest ih =>
    obtain ⟨fresh, restDistinct⟩ := List.nodup_cons.mp distinct
    rcases List.mem_cons.mp member with equal | later
    · simp [lookupEntry, equal]
    · have different : entry.1 ≠ head.1 := by
        intro equal
        exact fresh (equal ▸ List.mem_map_of_mem later)
      rw [lookupEntry, if_neg different]
      exact ih restDistinct later

/-- The entries of a map are what its lookups find. -/
theorem get?_eq_some_iff [Std.ReflOrd Key] {map : SortedMap Key Value} {key : Key}
    {value : Value} : map.get? key = some value ↔ (key, value) ∈ map.entries := by
  constructor
  · exact mem_of_lookupEntry
  · exact lookupEntry_of_mem map.nodup_keys

theorem mem_keys_iff [Std.ReflOrd Key] {map : SortedMap Key Value} {key : Key} :
    key ∈ map.keys ↔ map.contains key = true := by
  rw [contains, Option.isSome_iff_exists, keys, List.mem_map]
  constructor
  · rintro ⟨entry, member, rfl⟩
    exact ⟨entry.2, get?_eq_some_iff.mpr member⟩
  · rintro ⟨value, found⟩
    exact ⟨(key, value), get?_eq_some_iff.mp found, rfl⟩

variable [Std.TransOrd Key] [Std.LawfulEqOrd Key]

/-- A lookup after an insertion finds the new value at its key and the old
answer everywhere else. -/
@[simp]
theorem get?_insert (map : SortedMap Key Value) (key : Key) (value : Value)
    (wanted : Key) :
    (map.insert key value).get? wanted =
      if wanted = key then some value else map.get? wanted :=
  lookupEntry_insertEntry key value wanted map.entries

/-- What holds of a new entry and of all old ones holds of every entry. -/
theorem forall_get?_insert {holds : Key → Value → Prop} {map : SortedMap Key Value}
    (old : ∀ key value, map.get? key = some value → holds key value) {key : Key} {value : Value}
    (own : holds key value) :
    ∀ wanted found, (map.insert key value).get? wanted = some found → holds wanted found := by
  intro wanted found bound
  rw [get?_insert] at bound
  split at bound
  · rename_i equal
    cases bound
    exact equal ▸ own
  · exact old wanted found bound

omit [Std.LawfulEqOrd Key] in
/-- Where a list of entries has its first key, no increasing list begins with a greater one. -/
theorem not_lt_of_lookupEntry_eq {head other : Key × Value} {tail rest : List (Key × Value)}
    (increasing : (other :: rest).Pairwise
      fun earlier later => compare earlier.1 later.1 = .lt)
    (agree : lookupEntry head.1 (head :: tail) = lookupEntry head.1 (other :: rest)) :
    compare head.1 other.1 ≠ .lt := by
  intro less
  have below : ∀ entry ∈ other :: rest, compare head.1 entry.1 = .lt := by
    intro entry member
    rcases List.mem_cons.mp member with equal | member
    · exact equal ▸ less
    · exact Std.TransCmp.lt_trans less (List.rel_of_pairwise_cons increasing member)
  rw [lookupEntry_eq_none_of_below below] at agree
  simp [lookupEntry] at agree

theorem entries_eq_of_lookupEntry_eq {first second : List (Key × Value)}
    (firstIncreasing : first.Pairwise
      fun earlier later => compare earlier.1 later.1 = .lt)
    (secondIncreasing : second.Pairwise
      fun earlier later => compare earlier.1 later.1 = .lt)
    (agree : ∀ key, lookupEntry key first = lookupEntry key second) :
    first = second := by
  induction first generalizing second with
  | nil =>
    cases second with
    | nil => rfl
    | cons entry rest => simpa [lookupEntry] using agree entry.1
  | cons head tail ih =>
    cases second with
    | nil => simpa [lookupEntry] using agree head.1
    | cons other rest =>
      have keyEqual : head.1 = other.1 := by
        cases order : compare head.1 other.1 with
        | eq => exact Std.LawfulEqCmp.eq_of_compare order
        | lt =>
          exact absurd order (not_lt_of_lookupEntry_eq secondIncreasing (agree head.1))
        | gt =>
          exact absurd (Std.OrientedCmp.lt_of_gt order)
            (not_lt_of_lookupEntry_eq firstIncreasing (agree other.1).symm)
      have valueEqual : head.2 = other.2 := by
        have found := agree head.1
        simpa [lookupEntry, keyEqual] using found
      have headEqual : head = other := Prod.ext keyEqual valueEqual
      subst headEqual
      rw [ih firstIncreasing.of_cons secondIncreasing.of_cons]
      intro key
      by_cases equal : key = head.1
      · subst equal
        rw [lookupEntry_eq_none_of_below fun _ => List.rel_of_pairwise_cons firstIncreasing,
          lookupEntry_eq_none_of_below fun _ => List.rel_of_pairwise_cons secondIncreasing]
      · simpa [lookupEntry, equal] using agree key

/-- Maps that answer every lookup alike are equal. -/
theorem ext_get? {first second : SortedMap Key Value}
    (agree : ∀ key, first.get? key = second.get? key) : first = second := by
  have entriesEqual :=
    entries_eq_of_lookupEntry_eq first.increasing second.increasing agree
  cases first
  cases second
  cases entriesEqual
  rfl

theorem insert_comm (map : SortedMap Key Value) {first second : Key}
    (different : first ≠ second) (firstValue secondValue : Value) :
    (map.insert first firstValue).insert second secondValue =
      (map.insert second secondValue).insert first firstValue := by
  apply ext_get?
  intro key
  by_cases atFirst : key = first
  · subst atFirst
    simp [different]
  · simp [atFirst]

theorem insert_insert (map : SortedMap Key Value) (key : Key) (first second : Value) :
    (map.insert key first).insert key second = map.insert key second := by
  apply ext_get?
  intro wanted
  by_cases equal : wanted = key <;> simp [equal]

/-- A key that was bound to nothing is as if it had never been bound. -/
theorem erase_insert {map : SortedMap Key Value} {key : Key} (absent : map.get? key = none)
    (value : Value) : (map.insert key value).erase key = map := by
  apply ext_get?
  intro wanted
  by_cases equal : wanted = key <;> simp [equal, absent]

/-- Maps that bind the same keys list them alike. -/
theorem keys_eq_of_contains_eq {Other : Type} {first : SortedMap Key Value}
    {second : SortedMap Key Other} (same : ∀ key, first.contains key = second.contains key) :
    first.keys = second.keys := by
  have members : ∀ key, key ∈ first.keys ↔ key ∈ second.keys := by
    intro key
    rw [mem_keys_iff, mem_keys_iff, same]
  have permuted := (List.perm_ext_iff_of_nodup first.nodup_keys second.nodup_keys).mpr members
  refine permuted.eq_of_pairwise ?_ first.increasing_keys second.increasing_keys
  intro earlier later _ _ less greater
  rw [Std.OrientedCmp.gt_of_lt less] at greater
  cases greater

theorem get?_foldl_insert {pairs : List (Key × Value)}
    (distinct : (pairs.map Prod.fst).Nodup) (map : SortedMap Key Value) (key : Key) :
    (pairs.foldl (fun map pair => map.insert pair.1 pair.2) map).get? key =
      (lookupEntry key pairs).or (map.get? key) := by
  induction pairs generalizing map with
  | nil => rfl
  | cons head rest ih =>
    obtain ⟨fresh, restDistinct⟩ := List.nodup_cons.mp distinct
    rw [List.foldl_cons, ih restDistinct, get?_insert, lookupEntry]
    split
    · rename_i equal
      have absent : lookupEntry key rest = none := by
        rw [Option.eq_none_iff_forall_ne_some]
        intro value found
        exact fresh (equal ▸ List.mem_map_of_mem (mem_of_lookupEntry found))
      rw [absent, Option.none_or, Option.some_or]
    · rfl

/-- The map of the entries of a map is this map. -/
theorem ofList_entries (map : SortedMap Key Value) : ofList map.entries = map := by
  apply ext_get?
  intro key
  rw [ofList, get?_foldl_insert map.nodup_keys, get?_empty, Option.or_none]
  rfl

/-- Pairs in increasing key order are the entries of their map. -/
theorem entries_ofList {pairs : List (Key × Value)}
    (increasing : pairs.Pairwise fun earlier later => compare earlier.1 later.1 = .lt) :
    (ofList pairs).entries = pairs :=
  congrArg entries (ofList_entries ⟨pairs, increasing⟩)

end LawfulLookup

end SortedMap

end Dotenv
