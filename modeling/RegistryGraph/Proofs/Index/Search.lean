import RegistryGraph.Index.Search
import RegistryGraph.Proofs.Index.Partitions
import RegistryGraph.Proofs.Text.LowerCase

/-!
# What a search finds

A search compares the lower case of the query with the lower case of the texts of an entity, each taken on
its own.  A capital sigma that ends the query, but no word of the text, has another lower case in the one than
in the other; so an entity can contain a query to the letter and be missed.

* `EntityIndex.Consistent.mem_search_iff`: the entities that a search finds.
* `EntityIndex.search_tells`: which entities with the query in a text are among them, and for which queries
  all of them are.
* `EntityIndex.search_of_sigma_inside`: an entity that is missed.
-/

namespace RegistryGraph

/-- The texts of an entity that a search looks at. -/
def Entity.texts (e : Entity) : List String := e.name :: e.id :: e.attributes.values

/-- The lower case of one text is part of that of the other. -/
def Text.InLowerCase (pattern text : String) : Prop :=
  (lowerCase pattern).toList <:+: (lowerCase text).toList

/-- An entity matches if one of its texts does. -/
theorem Entity.matchesLower_iff {e : Entity} {query : String} :
    e.matchesLower (Text.lowerCase query).toList = true ↔
      ∃ text ∈ e.texts, Text.InLowerCase query text := by
  simp only [matchesLower, containsLower, texts, Text.InLowerCase, Bool.or_eq_true, List.any_eq_true,
    Text.occursIn_iff, List.exists_mem_cons_iff, or_assoc]

namespace EntityIndex

open Text (InLowerCase)

variable {octets : Octets} {sourceFile revision : String} {index : EntityIndex} {e : Entity}
  {query : String} {limit : Nat}

/-- What a search finds stands in ascending order of the ids, each entity once. -/
theorem Consistent.pairwise_search (h : index.Consistent) (query : String) (limit : Nat) :
    (index.search query limit).Pairwise fun a b => a.id < b.id := by
  have hall : index.all.Pairwise fun a b => a.id < b.id := by
    have hsorted := h.ids_sorted
    rw [← h.map_id_all] at hsorted
    exact List.pairwise_map.1 hsorted
  exact hall.sublist ((List.take_sublist _ _).trans List.filter_sublist)

/-- **What a search finds** if its limit leaves room for all entities. -/
theorem Consistent.mem_search_iff (h : index.Consistent) (hlimit : index.size ≤ limit) :
    e ∈ index.search query limit ↔
      index.get? e.id = some e ∧ ∃ text ∈ e.texts, InLowerCase query text := by
  rw [search, List.take_of_length_le, List.mem_filter, mem_all_iff h, Entity.matchesLower_iff]
  exact ((List.length_filter_le _ _).trans_eq h.length_all).trans hlimit

/-- **Which entities a search finds.**  If its limit leaves room for all entities, a search finds, in
ascending order of their ids and each once, the entities with a text whose lower case contains that of the
query.  An entity with the query in one of its texts is among them if every capital sigma of the query ends
a word in this text just in case it does so in the query alone.  So nothing is missed for a firm query, in
particular for one without capital sigmas; and for no other query does every text that contains it contain
it in lower case. -/
theorem search_tells (h : build octets sourceFile revision = .ok index)
    (hlimit : index.size ≤ limit) (query : String) :
    ((index.search query limit).Pairwise fun a b => a.id < b.id) ∧
      (∀ e, e ∈ index.search query limit ↔
        index.get? e.id = some e ∧ ∃ text ∈ e.texts, InLowerCase query text) ∧
      (∀ e, index.get? e.id = some e → ∀ text ∈ e.texts, ∀ before after,
        text.toList = before ++ query.toList ++ after →
        Text.KeepsSigmas before.reverse query.toList after → e ∈ index.search query limit) ∧
      (Text.Firm query → ∀ e, index.get? e.id = some e → ∀ text ∈ e.texts,
        query.toList <:+: text.toList → e ∈ index.search query limit) ∧
      (Text.capitalSigma ∉ query.toList → Text.Firm query) ∧
      (Text.Firm query ↔
        ∀ text : String, query.toList <:+: text.toList → InLowerCase query text) := by
  have hindex := consistent_of_build h
  refine ⟨hindex.pairwise_search query limit, fun e => hindex.mem_search_iff hlimit, ?_, ?_,
    Text.firm_of_not_mem, Text.firm_iff_always_found⟩
  · intro e hfound text htext before after hsplit hkeeps
    exact (hindex.mem_search_iff hlimit).2 ⟨hfound, text, htext, hkeeps.infix_lowerCase hsplit⟩
  · intro hfirm e hfound text htext hpart
    exact (hindex.mem_search_iff hlimit).2
      ⟨hfound, text, htext, Text.firm_iff_always_found.1 hfirm text hpart⟩

/-- A capital sigma between letters and one at the end of a word, with a blank behind it: the query is firm
and finds the one entity of two that contains it. -/
theorem search_tells_sigmas :
    ∃ index e, build (Utf8.encode "<r><a code='1' name='ΔΣΔΣ Δ'/><a code='2' name='ΔΣ'/></r>") "f" "v" =
        .ok index ∧
      index.size ≤ 2 ∧ index.get? "a:1" = some e ∧ "ΔΣ ".toList <:+: e.name.toList ∧
      Text.Firm "ΔΣ " ∧ e ∈ index.search "ΔΣ " 2 ∧ (index.search "ΔΣ " 2).map (·.id) = ["a:1"] := by
  have hbuilt : (build (Utf8.encode "<r><a code='1' name='ΔΣΔΣ Δ'/><a code='2' name='ΔΣ'/></r>") "f"
      "v").toOption.map (fun index => (index.size, (index.get? "a:1").map fun e => (e.id, e.name),
        (index.search "ΔΣ " 2).map (·.id))) =
      some (2, some ("a:1", "ΔΣΔΣ Δ"), ["a:1"]) := by
    decide +kernel
  obtain ⟨index, hbuild, hshown⟩ := exists_build_of_map hbuilt
  obtain ⟨hsize, hentity, hids⟩ := by simpa only [Prod.mk.injEq] using hshown
  obtain ⟨e, hfound, he⟩ := Option.map_eq_some_iff.1 hentity
  obtain ⟨hid, hname⟩ := Prod.mk.inj he
  have hfirm : Text.Firm "ΔΣ " := by decide +kernel
  have hpart : "ΔΣ ".toList <:+: e.name.toList := by
    rw [hname]
    exact ⟨"ΔΣ".toList, "Δ".toList, by decide⟩
  obtain ⟨_, _, _, hnothingMissed, _⟩ := search_tells hbuild hsize.le "ΔΣ "
  have hmem := hnothingMissed hfirm e (hid ▸ hfound) e.name List.mem_cons_self hpart
  exact ⟨index, e, hbuild, hsize.le, hfound, hpart, hfirm, hmem, hids⟩

/-- **A sigma inside a word.**  On its own the query ends a word with its sigma; in the name another letter
follows, so the lower case of the query is not found in that of the name. -/
theorem search_of_sigma_inside :
    ∃ index e, build (Utf8.encode "<r><a code='1' name='ΔΣΔ'/></r>") "f" "v" = .ok index ∧
      index.size = 1 ∧ index.get? "a:1" = some e ∧ "ΔΣ".toList <:+: e.name.toList ∧
      index.search "ΔΣ" 1 = [] := by
  have hbuilt : (build (Utf8.encode "<r><a code='1' name='ΔΣΔ'/></r>") "f" "v").toOption.map
      (fun index => (index.size, (index.get? "a:1").map (·.name),
        (index.search "ΔΣ" 1).map (·.id))) = some (1, some "ΔΣΔ", []) := by
    decide +kernel
  obtain ⟨index, hbuild, hshown⟩ := exists_build_of_map hbuilt
  obtain ⟨hsize, hentity, hids⟩ := by simpa only [Prod.mk.injEq] using hshown
  obtain ⟨e, hfound, hname⟩ := Option.map_eq_some_iff.1 hentity
  refine ⟨index, e, hbuild, hsize, hfound, ?_, List.map_eq_nil_iff.1 hids⟩
  rw [hname]
  exact ⟨[], "Δ".toList, by decide⟩

end EntityIndex

end RegistryGraph
