import Mathlib.Data.List.Induction
import RegistryGraph.Json.Parser

/-!
# Members of objects

An object that is read can have several members with one key.  In canonical form it has the last of
them. So whoever looks at values in canonical form sees the last members of what was written.

* `Json.member?_sortMembers`: sorting keeps the last member of every key.
* `Json.get?_canonical`: the canonical form has the last members, in canonical form.
-/

namespace RegistryGraph.Json

variable {key : String} {v : Json} {members : List (String × Json)}

/-- The last member of a list that has the given key. -/
def lastMember? (members : List (String × Json)) (key : String) : Option Json :=
  member? members.reverse key

/-- The member of an object that was written last with the given key; none for any other value. -/
def last? (key : String) : Json → Option Json
  | .object members => lastMember? members key
  | _ => none

/-- The first member of that key decides. -/
theorem member?_cons (k : String) (v : Json) (members : List (String × Json)) (key : String) :
    member? ((k, v) :: members) key = if k = key then some v else member? members key := by
  rw [member?, List.find?_cons]
  by_cases hk : k = key
  · simp [hk]
  · simp [hk, member?]

/-- The last member of that key decides. -/
theorem lastMember?_concat (members : List (String × Json)) (k : String) (v : Json)
    (key : String) :
    lastMember? (members ++ [(k, v)]) key =
      if k = key then some v else lastMember? members key := by
  rw [lastMember?, List.reverse_concat, member?_cons, ← lastMember?]

/-- Filing a value under a key changes what stands there, and nothing else. -/
theorem member?_insertMember (k : String) (v : Json) (members : List (String × Json))
    (key : String) :
    member? (insertMember k v members) key = if k = key then some v else member? members key := by
  induction members with
  | nil =>
      rw [insertMember]
      exact member?_cons k v [] key
  | cons m members ih =>
      obtain ⟨k', w⟩ := m
      rw [insertMember]
      by_cases hbefore : k < k'
      · rw [if_pos hbefore]
        exact member?_cons k v _ key
      · rw [if_neg hbefore]
        by_cases hsame : k = k'
        · rw [if_pos hsame, member?_cons, member?_cons, hsame]
          split <;> rfl
        · rw [if_neg hsame, member?_cons, member?_cons, ih]
          by_cases hkey : k' = key
          · rw [if_pos hkey, if_pos hkey, if_neg]
            rintro rfl
            exact hsame hkey.symm
          · rw [if_neg hkey, if_neg hkey]

/-- Sorting keeps, of the members of one key, the last. -/
theorem member?_sortMembers (members : List (String × Json)) (key : String) :
    member? (sortMembers members) key = lastMember? members key := by
  induction members using List.reverseRecOn with
  | nil => rfl
  | append_singleton members m ih =>
      rw [sortMembers, List.foldl_append, ← sortMembers, List.foldl_cons, List.foldl_nil,
        member?_insertMember, ih, lastMember?_concat]

/-- The items of an array are made canonical one by one. -/
theorem canonicalItems_eq_map (items : List Json) :
    canonical.canonicalItems items = items.map canonical := by
  induction items with
  | nil => rfl
  | cons v rest ih => rw [canonical.canonicalItems, ih, List.map_cons]

/-- The members of an object are made canonical one by one, their keys kept. -/
theorem canonicalMembers_eq_map (members : List (String × Json)) :
    canonical.canonicalMembers members = members.map fun m => (m.1, m.2.canonical) := by
  induction members with
  | nil => rfl
  | cons m members ih =>
      rw [canonical.canonicalMembers, ih]
      rfl

/-- A map over the values commutes with looking a key up. -/
theorem member?_map (f : Json → Json) (members : List (String × Json)) (key : String) :
    member? (members.map fun m => (m.1, f m.2)) key = (member? members key).map f := by
  induction members with
  | nil => rfl
  | cons m members ih =>
      rw [List.map_cons, member?_cons, member?_cons, ih]
      split <;> rfl

/-- Of repeated members the last counts. -/
theorem get?_canonical (key : String) (v : Json) :
    v.canonical.get? key = (v.last? key).map canonical := by
  cases v with
  | object members =>
      rw [canonical, get?, member?_sortMembers, canonicalMembers_eq_map, last?, lastMember?,
        lastMember?, ← List.map_reverse]
      exact member?_map canonical members.reverse key
  | null | bool b | number n | string s | array items => rfl

/-- Canonical form leaves strings as they are and makes no new ones. -/
theorem asString?_canonical (v : Json) : v.canonical.asString? = v.asString? := by
  cases v <;> rfl

/-! ## Values that are built -/

/-- A record answers with the last member written under a key. -/
theorem get?_record (members : List (String × Json)) (key : String) :
    (record members).get? key = lastMember? members key := member?_sortMembers members key

/-- The object of a table has the entries of the table. -/
theorem get?_ofKeyed (t : Keyed Json) (key : String) : (ofKeyed t).get? key = t[key]? := by
  have hsame (entry : String × Json) :
      decide (entry.1 = key) = (compare entry.1 key == .eq) := by
    rw [Bool.eq_iff_iff, decide_eq_true_eq, beq_iff_eq, Std.LawfulEqCmp.compare_eq_iff_eq]
  have hmember : member? t.toList key =
      (t.toList.find? fun entry => compare entry.1 key == .eq).map (·.2) :=
    congrArg (fun p => (t.toList.find? p).map Prod.snd) (funext hsame)
  rw [ofKeyed, get?, hmember]
  by_cases hmem : key ∈ t
  · have hkey : t.getKey? key = some key := Std.ExtTreeMap.getKey?_eq_some hmem
    obtain ⟨v, hentry⟩ := Option.isSome_iff_exists.1 (Std.ExtTreeMap.mem_iff_isSome_getElem?.1 hmem)
    rw [Std.ExtTreeMap.find?_toList_eq_some_iff_getKey?_eq_some_and_getElem?_eq_some.2
      ⟨hkey, hentry⟩, hentry]
    rfl
  · rw [Std.ExtTreeMap.find?_toList_eq_none_iff_not_mem.2 hmem,
      Std.ExtTreeMap.getElem?_eq_none hmem]
    rfl

end RegistryGraph.Json
