import Mathlib
import RegistryGraph.Text.Keyed

/-!
# Reading tables

A table is known by what it holds under every key.  This file says what each way of filling a table
leaves under a key, and adds two tables given by a rule instead of a history: `Keyed.tabulate` holds
the value of a function under each of some keys, and `Keyed.group` files the members of a list under
their keys, in the order of the list.  What is sorted by text keys, as the entries of a table are, stands
in ascending order.
-/

namespace RegistryGraph.Keyed

variable {α β : Type}

/-- The table of the values that `value?` gives to the keys in `keys`. -/
def tabulate (keys : List String) (value? : String → Option α) : Keyed α :=
  ofPairs (keys.filterMap fun k => (value? k).map (k, ·))

/-- The names of the members that `key?` files under `k`, in the order of the list. -/
def filedUnder (members : List β) (key? : β → Option String) (name : β → String) (k : String) :
    List String :=
  (members.filter (key? · = some k)).map name

/-- The names of the members, filed under their keys. -/
def group (members : List β) (key? : β → Option String) (name : β → String) :
    Keyed (List String) :=
  tabulate (members.filterMap key?) fun k => some (filedUnder members key? name k)

/-- Of several pairs with one key the last one counts. -/
theorem getElem?_ofPairs (entries : List (String × α)) (k : String) :
    (ofPairs entries)[k]? = (entries.reverse.find? (·.1 = k)).map (·.2) := by
  unfold ofPairs
  rw [List.foldl_eq_foldr_reverse]
  induction entries.reverse with
  | nil => simp
  | cons e rest ih =>
      rw [List.foldr_cons, Std.ExtTreeMap.getElem?_insert, ih]
      by_cases h : e.1 = k <;> simp [h]

/-- A tabulated table answers at its keys and nowhere else. -/
theorem getElem?_tabulate (keys : List String) (value? : String → Option α) (k : String) :
    (tabulate keys value?)[k]? = if k ∈ keys then value? k else none := by
  -- The induction runs from the last key to the first.
  suffices h : ∀ ks : List String,
      ((ks.filterMap fun k => (value? k).map (k, ·)).foldr (fun e t => t.insert e.1 e.2)
        (∅ : Keyed α))[k]? = if k ∈ ks then value? k else none by
    unfold tabulate ofPairs
    rw [List.foldl_eq_foldr_reverse, ← List.filterMap_reverse, h]
    simp only [List.mem_reverse]
  intro ks
  induction ks with
  | nil => simp
  | cons key rest ih =>
      by_cases hk : key = k
      · subst hk
        cases hv : value? key with
        | none => simp [hv, ih]
        | some v => simp [hv]
      · have hne : k ≠ key := fun h => hk h.symm
        cases hv : value? key with
        | none => simp [hv, ih, hne]
        | some v => simp [hv, ih, hk, hne, Std.ExtTreeMap.getElem?_insert]

/-- A key without members has no list; no list is empty. -/
theorem getElem?_group (members : List β) (key? : β → Option String) (name : β → String)
    (k : String) :
    (group members key? name)[k]? =
      if filedUnder members key? name k = [] then none
      else some (filedUnder members key? name k) := by
  rw [group, getElem?_tabulate]
  by_cases h : ∃ m ∈ members, key? m = some k
  · have hmem : k ∈ members.filterMap key? := List.mem_filterMap.2 h
    obtain ⟨m, hm, hk⟩ := h
    have hne : filedUnder members key? name k ≠ [] :=
      List.ne_nil_of_mem (List.mem_map_of_mem (List.mem_filter.2 ⟨hm, decide_eq_true hk⟩))
    rw [if_pos hmem, if_neg hne]
  · have hmem : k ∉ members.filterMap key? := fun hk => h (List.mem_filterMap.1 hk)
    have hnil : filedUnder members key? name k = [] := by
      simp only [filedUnder, List.map_eq_nil_iff, List.filter_eq_nil_iff, decide_eq_true_eq]
      exact fun m hm hk => h ⟨m, hm, hk⟩
    rw [if_neg hmem, if_pos hnil]

/-- The list at a key is what the table has there, or empty. -/
theorem listAt_eq (t : Keyed (List α)) (k : String) : t.listAt k = t[k]?.getD [] :=
  Std.ExtTreeMap.getD_eq_getD_getElem?

/-- What stands in the list at a key stands in what the table has there. -/
theorem mem_listAt_iff {t : Keyed (List α)} {k : String} {a : α} :
    a ∈ t.listAt k ↔ ∃ members, t[k]? = some members ∧ a ∈ members := by
  rw [listAt_eq]
  cases t[k]? with
  | none => simp
  | some members => simp

/-- The list at a key of a grouping is what is filed under the key. -/
@[simp] theorem listAt_group (members : List β) (key? : β → Option String) (name : β → String)
    (k : String) : (group members key? name).listAt k = filedUnder members key? name k := by
  rw [listAt_eq, getElem?_group]
  split
  · next h => simp [h]
  · rfl

/-- Appending at a key changes the list there and no other. -/
theorem getElem?_append (t : Keyed (List α)) (key k : String) (a : α) :
    (t.append key a)[k]? = if key = k then some (t.listAt k ++ [a]) else t[k]? := by
  rw [append, Std.ExtTreeMap.getElem?_alter]
  by_cases h : key = k
  · subst h
    simp [listAt_eq]
  · simp [h]

/-- What is filed of two lists is filed one behind the other. -/
theorem filedUnder_append (members more : List β) (key? : β → Option String) (name : β → String)
    (k : String) :
    filedUnder (members ++ more) key? name k =
      filedUnder members key? name k ++ filedUnder more key? name k := by
  simp [filedUnder]

/-- A member without a key is not filed. -/
theorem group_concat_of_none {members : List β} {key? : β → Option String} {m : β}
    (name : β → String) (h : key? m = none) :
    group (members ++ [m]) key? name = group members key? name := by
  apply Std.ExtTreeMap.ext_getElem?
  intro k
  rw [getElem?_group, getElem?_group, filedUnder_append]
  simp [filedUnder, h]

/-- A new last member is appended to the list under its key. -/
theorem group_concat_of_some {members : List β} {key? : β → Option String} {m : β} {key : String}
    (name : β → String) (h : key? m = some key) :
    group (members ++ [m]) key? name = (group members key? name).append key (name m) := by
  apply Std.ExtTreeMap.ext_getElem?
  intro k
  rw [getElem?_append, listAt_group, getElem?_group, getElem?_group, filedUnder_append]
  by_cases hk : key = k
  · simp [filedUnder, h, hk]
  · simp [filedUnder, h, hk]

/-- **Counting by groups.**  If every key stands in one list, and there once, the lists together are as
long as the keys are many. -/
theorem sum_lengths {lists : Keyed (List α)} {keys : List α} (hkeys : keys.Nodup)
    (hnodup : ∀ k, (lists.listAt k).Nodup) (hmem : ∀ a, a ∈ keys ↔ ∃ k, a ∈ lists.listAt k)
    (hone : ∀ k k' a, a ∈ lists.listAt k → a ∈ lists.listAt k' → k = k') :
    (lists.toList.map fun entry => entry.2.length).sum = keys.length := by
  have hlist : ∀ {entry}, entry ∈ lists.toList → lists.listAt entry.1 = entry.2 := by
    intro entry hentry
    rw [listAt_eq, Std.ExtTreeMap.mem_toList_iff_getElem?_eq_some.1 hentry, Option.getD_some]
  have hflat : (lists.toList.flatMap (·.2)).Nodup := by
    rw [List.nodup_flatMap]
    refine ⟨fun entry hentry => hlist hentry ▸ hnodup entry.1, ?_⟩
    refine Std.ExtTreeMap.distinct_keys_toList.imp_of_mem ?_
    intro entry entry' hentry hentry' hne
    rw [Function.onFun, List.disjoint_left]
    intro a ha ha'
    rw [← hlist hentry] at ha
    rw [← hlist hentry'] at ha'
    rw [hone _ _ a ha ha'] at hne
    exact hne Std.ReflCmp.compare_self
  have hperm : (lists.toList.flatMap (·.2)).Perm keys := by
    refine (List.perm_ext_iff_of_nodup hflat hkeys).2 fun a => ?_
    rw [hmem, List.mem_flatMap]
    constructor
    · intro h
      obtain ⟨entry, hentry, ha⟩ := h
      exact ⟨entry.1, (hlist hentry).symm ▸ ha⟩
    · intro h
      obtain ⟨k, ha⟩ := h
      obtain ⟨members, hk, ha⟩ := mem_listAt_iff.1 ha
      exact ⟨(k, members), Std.ExtTreeMap.mem_toList_iff_getElem?_eq_some.2 hk, ha⟩
  rw [← hperm.length_eq, List.length_flatMap]

/-! ## Gathering keys -/

/-- A key is in the table after insertions if it was there or is inserted. -/
theorem mem_foldl_insert_iff {key : String} (keys : List String) (table : Keyed Unit) :
    key ∈ keys.foldl (fun table k => table.insert k ()) table ↔ key ∈ table ∨ key ∈ keys := by
  induction keys generalizing table with
  | nil => simp
  | cons k rest ih =>
      rw [List.foldl_cons, ih, Std.ExtTreeMap.mem_insert, Std.LawfulEqCmp.compare_eq_iff_eq,
        List.mem_cons]
      grind

/-- A table gathers the keys of all members. -/
theorem mem_foldl_keys_iff {key : String} {keysOf : β → List String} (members : List β)
    (table : Keyed Unit) :
    key ∈ members.foldl (fun table m => (keysOf m).foldl (fun table k => table.insert k ()) table)
        table ↔
      key ∈ table ∨ ∃ m ∈ members, key ∈ keysOf m := by
  induction members generalizing table with
  | nil => simp
  | cons m rest ih =>
      rw [List.foldl_cons, ih, mem_foldl_insert_iff, or_assoc, List.exists_mem_cons_iff]

/-! ## Ascending order -/

/-- What is sorted by its keys stands in ascending order of them. -/
theorem pairwise_mergeSort (key : β → String) (members : List β) :
    (members.mergeSort fun a b => (compare (key a) (key b)).isLE).Pairwise fun a b =>
      key a ≤ key b := by
  have hsorted : (members.mergeSort fun a b => (compare (key a) (key b)).isLE).Pairwise
      fun a b => (compare (key a) (key b)).isLE = true := by
    refine List.pairwise_mergeSort (fun _ _ _ => Std.TransCmp.isLE_trans) ?_ members
    intro a b
    rw [Bool.or_eq_true, ← Std.OrientedCmp.isGE_iff_isLE (a := key a) (b := key b)]
    cases compare (key a) (key b) <;> simp
  refine hsorted.imp fun {a b} hle => ?_
  rcases Ordering.isLE_iff_eq_lt_or_eq_eq.1 hle with hlt | heq
  · exact (compareOfLessAndEq_eq_lt.1 hlt).le
  · exact (Std.LawfulEqCmp.eq_of_compare heq).le

/-- The keys of a table stand in ascending order. -/
theorem pairwise_keys (t : Keyed α) : t.keys.Pairwise (· < ·) := by
  have hordered : t.keys.Pairwise fun k l => compare k l = .lt := Std.ExtTreeMap.ordered_keys
  exact hordered.imp fun hlt => compareOfLessAndEq_eq_lt.1 hlt

end RegistryGraph.Keyed
