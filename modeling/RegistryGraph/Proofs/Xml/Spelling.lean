import Mathlib.Data.List.TakeWhile
import RegistryGraph.Xml.Tag

/-!
# How a tag is spelled

The reader of a tag forgets the blanks, the kind of the quotes and the offsets.  `TagSpelling` keeps them: a
name, a row of attributes with everything that is written between them, and the blanks at the end.  Its fields
say what a spelling needs so that each piece ends where the reader stops.

`TagSpelling.attributes_tag` and `TagSpelling.name_tag` read a spelling back; by `Tag.exists_spelling` every
tag without faults has one.
-/

namespace RegistryGraph.Xml

/-- Nothing but blanks. -/
def AllBlank (octets : Octets) : Prop := ∀ b ∈ octets, isBlank b = true

instance (octets : Octets) : Decidable (AllBlank octets) := List.decidableBAll _ octets

/-- The blanks in front are blank. -/
theorem allBlank_takeWhile (octets : Octets) : AllBlank (octets.takeWhile isBlank) :=
  fun _ hb => List.mem_takeWhile_imp hb

/-- A key that the reader takes in one piece.  Its first octet may be anything but a blank. -/
structure IsKey (key : Octets) : Prop where
  nonempty : key ≠ []
  solid : ∀ b ∈ key, isBlank b = false
  endless : ∀ b ∈ key.tail, b ≠ 0x3D

instance (key : Octets) : Decidable (IsKey key) :=
  decidable_of_iff (key ≠ [] ∧ key.all (!isBlank ·) ∧ key.tail.all (· != 0x3D))
    ⟨fun ⟨nonempty, solid, endless⟩ => ⟨nonempty, by simpa using solid, by simpa using endless⟩,
      fun h => ⟨h.nonempty, by simpa using h.solid, by simpa using h.endless⟩⟩

/-- An attribute, and how it is written: `gap key before = after "value"`. -/
structure AttributeSpelling where
  gap : Octets
  key : Octets
  before : Octets
  after : Octets
  quote : UInt8
  value : Octets
  gap_blank : AllBlank gap
  isKey : IsKey key
  before_blank : AllBlank before
  after_blank : AllBlank after
  quoted : quote = 0x22 ∨ quote = 0x27
  closed : ∀ b ∈ value, b ≠ quote

namespace AttributeSpelling

/-- The attribute that a reader finds. -/
def toAttribute (a : AttributeSpelling) : Attribute := ⟨a.key, a.value⟩

/-- The octets of the attribute, the gap in front of it included. -/
def octets (a : AttributeSpelling) : Octets :=
  a.gap ++ (a.key ++ (a.before ++ 0x3D :: (a.after ++ a.quote :: (a.value ++ [a.quote]))))

end AttributeSpelling

/-- A tag, and how it is written.  The first attribute is parted from the name by a blank at least. -/
structure TagSpelling where
  name : Octets
  attributes : List AttributeSpelling
  blanks : Octets
  solid : ∀ b ∈ name, isBlank b = false
  parted : ∀ a ∈ attributes.head?, a.gap ≠ []
  blank : AllBlank blanks
  distinct : (attributes.map (·.key)).Nodup

namespace TagSpelling

/-- The octets of the tag. -/
def content (t : TagSpelling) : Octets :=
  t.name ++ (t.attributes.flatMap AttributeSpelling.octets ++ t.blanks)

/-- The tag that is spelled. -/
def tag (t : TagSpelling) : Tag := ⟨t.content⟩

end TagSpelling

/-! ## Pieces that end where they should -/

section Pieces

variable {p : UInt8 → Bool}

/-- What the octets that satisfy `p` leave over. -/
theorem drop_length_takeWhile (p : UInt8 → Bool) (octets : Octets) :
    octets.drop (octets.takeWhile p).length = octets.dropWhile p := by
  have hdrop := List.prefix_iff_eq_append.1 (List.takeWhile_prefix (l := octets) p)
  exact List.append_cancel_left (hdrop.trans List.takeWhile_append_dropWhile.symm)

/-- The octets in front that satisfy `p` are taken, and nothing else, if the next one does not. -/
theorem takeWhile_front {front rest : Octets} (hfront : ∀ b ∈ front, p b = true)
    (hrest : ∀ b ∈ rest.head?, p b = false) : (front ++ rest).takeWhile p = front := by
  rw [List.takeWhile_append_of_pos hfront]
  cases rest with
  | nil => simp
  | cons b rest => simp [hrest b rfl]

/-- Dropping stops exactly where the front ends. -/
theorem dropWhile_front {front rest : Octets} (hfront : ∀ b ∈ front, p b = true)
    (hrest : ∀ b ∈ rest.head?, p b = false) : (front ++ rest).dropWhile p = rest := by
  rw [List.dropWhile_append_of_pos hfront]
  cases rest with
  | nil => rfl
  | cons b rest => simp [hrest b rfl]

/-- The first octet that is left over does not satisfy `p`. -/
theorem not_of_dropWhile_eq_cons {octets rest : Octets} {b : UInt8}
    (h : octets.dropWhile p = b :: rest) : p b = false := by
  have hhead := List.head?_dropWhile_not p octets
  rw [h] at hhead
  exact hhead

end Pieces

namespace Tag

/-- A key is read up to its equals sign. -/
theorem readKey_spelled (position : Nat) {b : UInt8} {tail before : Octets} (rest : Octets)
    (hkey : IsKey (b :: tail)) (hbefore : AllBlank before) :
    ∃ behind, readKey position b (tail ++ (before ++ 0x3D :: rest)) =
      .ok ⟨b :: tail, position, rest, behind⟩ := by
  have htail : (tail ++ (before ++ 0x3D :: rest)).takeWhile (fun c => c ≠ 0x3D && !isBlank c) =
      tail := by
    apply takeWhile_front
    · intro c hc
      simp [hkey.endless c hc, hkey.solid c (List.mem_cons_of_mem _ hc)]
    · cases before with
      | nil => simp
      | cons c before => simp [hbefore c List.mem_cons_self]
  have hblanks : (before ++ 0x3D :: rest).takeWhile isBlank = before :=
    takeWhile_front hbefore (by simp [isBlank])
  simp only [readKey, htail, List.drop_left, hblanks, if_pos]
  exact ⟨_, rfl⟩

/-- What has been read as a key is spelled as one. -/
theorem spelled_of_readKey {position : Nat} {b : UInt8} {octets : Octets} {k : KeyRead}
    (hb : isBlank b = false) (h : readKey position b octets = .ok k) :
    IsKey k.key ∧ ∃ before, AllBlank before ∧ b :: octets = k.key ++ (before ++ 0x3D :: k.rest) := by
  simp only [readKey, drop_length_takeWhile] at h
  split at h
  · cases h
  · next c rest hrest =>
      split at h
      · next hc =>
          cases h
          subst hc
          refine ⟨⟨by simp, ?_, ?_⟩, _,
            allBlank_takeWhile (octets.dropWhile fun c => c ≠ 0x3D && !isBlank c), ?_⟩
          · intro c hc
            rcases List.mem_cons.1 hc with rfl | hc
            · exact hb
            · have hboth := List.mem_takeWhile_imp hc
              simp only [Bool.and_eq_true, Bool.not_eq_true'] at hboth
              exact hboth.2
          · intro c hc
            have hboth := List.mem_takeWhile_imp hc
            simp only [Bool.and_eq_true, decide_eq_true_eq] at hboth
            exact hboth.1
          · rw [← hrest, List.takeWhile_append_dropWhile, List.cons_append,
              List.takeWhile_append_dropWhile]
      · cases h

/-- A value is read up to the quote that opened it. -/
theorem readValue_spelled (position : Nat) {after value : Octets} {quote : UInt8} (rest : Octets)
    (hafter : AllBlank after) (hquote : quote = 0x22 ∨ quote = 0x27) (hvalue : ∀ b ∈ value, b ≠ quote) :
    ∃ behind, readValue position (after ++ quote :: (value ++ quote :: rest)) =
      .ok ⟨value, rest, behind⟩ := by
  have hblanks : (after ++ quote :: (value ++ quote :: rest)).takeWhile isBlank = after := by
    apply takeWhile_front hafter
    rcases hquote with rfl | rfl <;> simp [isBlank]
  have hopen : (decide (quote = 0x22) || decide (quote = 0x27)) = true := by simpa using hquote
  have hclosed : (value ++ quote :: rest).takeWhile (fun b => decide (b ≠ quote)) = value :=
    takeWhile_front (by simpa using hvalue) (by simp)
  simp only [readValue, hblanks, List.drop_left, hopen, if_true, hclosed]
  exact ⟨_, rfl⟩

/-- What has been read as a value is spelled as one. -/
theorem spelled_of_readValue {position : Nat} {octets : Octets} {v : ValueRead}
    (h : readValue position octets = .ok v) :
    ∃ after quote, AllBlank after ∧ (quote = 0x22 ∨ quote = 0x27) ∧ (∀ b ∈ v.value, b ≠ quote) ∧
      octets = after ++ quote :: (v.value ++ quote :: v.rest) := by
  simp only [readValue, drop_length_takeWhile] at h
  split at h
  · cases h
  · next quote rest hrest =>
      split at h
      · next hquote =>
          split at h
          · cases h
          · next q behind hbehind =>
              cases h
              have hq : q = quote := by simpa using not_of_dropWhile_eq_cons hbehind
              subst hq
              refine ⟨_, q, allBlank_takeWhile octets, by simpa using hquote, ?_, ?_⟩
              · intro b hb
                simpa using List.mem_takeWhile_imp hb
              · rw [← hbehind, List.takeWhile_append_dropWhile, ← hrest,
                  List.takeWhile_append_dropWhile]
      · cases h

/-- Behind the last attribute there may be blanks. -/
theorem attributesFrom_blank (position : Nat) (seen : List (Octets × Nat)) (done : List Attribute)
    {blanks : Octets} (h : AllBlank blanks) :
    attributesFrom position seen done blanks = ⟨done.reverse, none⟩ := by
  have hall : blanks.takeWhile isBlank = blanks := List.takeWhile_eq_self_iff.2 h
  rw [attributesFrom]
  split
  · rfl
  · next hrest =>
      simp [hall] at hrest

/-- One attribute that is spelled and new is read, whatever follows. -/
theorem attributesFrom_spelled_cons (position : Nat) {seen : List (Octets × Nat)}
    (done : List Attribute) (a : AttributeSpelling) (rest : Octets)
    (hnew : ∀ k ∈ seen, k.1 ≠ a.key) :
    ∃ here behind, attributesFrom position seen done (a.octets ++ rest) =
      attributesFrom behind ((a.key, here) :: seen) (a.toAttribute :: done) rest := by
  obtain ⟨b, tail, hkey⟩ := List.exists_cons_of_ne_nil a.isKey.nonempty
  have hisKey : IsKey (b :: tail) := hkey ▸ a.isKey
  have hoctets : a.octets ++ rest = a.gap ++ b :: (tail ++ (a.before ++ 0x3D ::
      (a.after ++ a.quote :: (a.value ++ a.quote :: rest)))) := by
    simp [AttributeSpelling.octets, hkey]
  have hgap : (a.octets ++ rest).takeWhile isBlank = a.gap := by
    rw [hoctets]
    exact takeWhile_front a.gap_blank (by simpa using hisKey.solid b List.mem_cons_self)
  rw [attributesFrom]
  split
  · next hrest =>
      rw [hgap, hoctets, List.drop_left] at hrest
      cases hrest
  · next hrest =>
      rw [hgap, hoctets, List.drop_left] at hrest
      cases hrest
      obtain ⟨behind, hread⟩ := readKey_spelled (position + a.gap.length)
        (a.after ++ a.quote :: (a.value ++ a.quote :: rest)) hisKey a.before_blank
      split
      · next hk =>
          rw [hgap, hread] at hk
          cases hk
      · next k hk =>
          rw [hgap, hread] at hk
          cases hk
          have hfind : seen.find? (fun k => decide (k.1 = b :: tail)) = none := by
            simpa [← hkey] using hnew
          obtain ⟨next, hvalue⟩ :=
            readValue_spelled behind rest a.after_blank a.quoted a.closed
          split
          · next hseen =>
              rw [hfind] at hseen
              cases hseen
          · split
            · next hv =>
                rw [hvalue] at hv
                cases hv
            · next hv =>
                rw [hvalue] at hv
                cases hv
                exact ⟨_, _, by rw [AttributeSpelling.toAttribute, hkey]⟩

/-- **Spelled attributes are read**, one behind the other. -/
theorem attributesFrom_spelled (position : Nat) {seen : List (Octets × Nat)} (done : List Attribute)
    {as : List AttributeSpelling} {blanks : Octets} (hblanks : AllBlank blanks)
    (hdistinct : (as.map (·.key)).Nodup) (hnew : ∀ a ∈ as, ∀ k ∈ seen, k.1 ≠ a.key) :
    attributesFrom position seen done (as.flatMap AttributeSpelling.octets ++ blanks) =
      ⟨done.reverse ++ as.map (·.toAttribute), none⟩ := by
  induction as generalizing position seen done with
  | nil => simpa using attributesFrom_blank position seen done hblanks
  | cons a rest ih =>
      obtain ⟨hfirst, hrest⟩ := List.nodup_cons.1 hdistinct
      obtain ⟨here, behind, hstep⟩ := attributesFrom_spelled_cons position done a
        (rest.flatMap AttributeSpelling.octets ++ blanks) (hnew a List.mem_cons_self)
      have hlater : ∀ a' ∈ rest, ∀ k ∈ (a.key, here) :: seen, k.1 ≠ a'.key := by
        intro a' ha' k hk
        rcases List.mem_cons.1 hk with rfl | hk
        · exact fun heq => hfirst (List.mem_map.2 ⟨a', ha', heq.symm⟩)
        · exact hnew a' (List.mem_cons_of_mem _ ha') k hk
      rw [List.flatMap_cons, List.append_assoc, hstep, ih behind _ hrest hlater]
      simp

/-- **Attributes without faults are spelled.** -/
theorem exists_spelling_of_attributesFrom {position : Nat} {seen : List (Octets × Nat)}
    {done : List Attribute} {octets : Octets}
    (h : (attributesFrom position seen done octets).fault = none) :
    ∃ (as : List AttributeSpelling) (blanks : Octets), AllBlank blanks ∧
      octets = as.flatMap AttributeSpelling.octets ++ blanks ∧ (as.map (·.key)).Nodup ∧
        ∀ a ∈ as, ∀ k ∈ seen, k.1 ≠ a.key := by
  fun_induction attributesFrom position seen done octets with
  | case1 position seen done octets blanks hb =>
      have hall : octets.takeWhile isBlank = octets := by
        have happend := List.takeWhile_append_dropWhile (p := isBlank) (l := octets)
        rwa [← drop_length_takeWhile, hb, List.append_nil] at happend
      exact ⟨[], octets, hall ▸ allBlank_takeWhile octets, rfl, by simp, by simp⟩
  | case2 | case3 | case4 => cases h
  | case5 position seen done octets blanks start b rest hb k hk hnew v hv _ ih =>
      obtain ⟨as, tail, htail, hoctets, hdistinct, hlater⟩ := ih h
      rw [drop_length_takeWhile] at hb
      obtain ⟨hisKey, before, hbefore, hkey⟩ := spelled_of_readKey (not_of_dropWhile_eq_cons hb) hk
      obtain ⟨after, quote, hafter, hquote, hvalue, hrest⟩ := spelled_of_readValue hv
      let a : AttributeSpelling := ⟨blanks, k.key, before, after, quote, v.value,
        allBlank_takeWhile octets, hisKey, hbefore, hafter, hquote, hvalue⟩
      have hgap : octets = blanks ++ b :: rest := by
        rw [← hb, List.takeWhile_append_dropWhile]
      have hunused : ∀ a' ∈ as, a'.key ≠ k.key := fun a' ha' heq =>
        hlater a' ha' _ List.mem_cons_self heq.symm
      refine ⟨a :: as, tail, htail, ?_, ?_, ?_⟩
      · rw [hgap, hkey, hrest, hoctets]
        simp [a, AttributeSpelling.octets]
      · rw [List.map_cons, List.nodup_cons]
        refine ⟨fun hmem => ?_, hdistinct⟩
        obtain ⟨a', ha', heq⟩ := List.mem_map.1 hmem
        exact hunused a' ha' heq
      · intro a' ha' earlier hearlier
        rcases List.mem_cons.1 ha' with rfl | ha'
        · simpa using List.find?_eq_none.1 hnew earlier hearlier
        · exact hlater a' ha' earlier (List.mem_cons_of_mem _ hearlier)

end Tag

namespace TagSpelling

variable (t : TagSpelling)

/-- Behind the name there is nothing, or a blank. -/
theorem isBlank_of_head? :
    ∀ b ∈ (t.attributes.flatMap AttributeSpelling.octets ++ t.blanks).head?, isBlank b = true := by
  intro b hb
  have hparted := t.parted
  cases hattributes : t.attributes with
  | nil =>
      rw [hattributes] at hb
      exact t.blank b (List.mem_of_mem_head? (by simpa using hb))
  | cons a rest =>
      rw [hattributes] at hb hparted
      obtain ⟨c, gap, hgap⟩ := List.exists_cons_of_ne_nil (hparted a rfl)
      have hc : b = c := by simpa [AttributeSpelling.octets, hgap, eq_comm] using hb
      exact hc ▸ a.gap_blank c (by rw [hgap]; exact List.mem_cons_self)

/-- **The name is read back.** -/
theorem name_tag : t.tag.name = t.name := by
  refine takeWhile_front ?_ ?_
  · simpa using t.solid
  · simpa using t.isBlank_of_head?

/-- **The attributes are read back.** -/
theorem attributes_tag : t.tag.attributes = ⟨t.attributes.map (·.toAttribute), none⟩ := by
  rw [Tag.attributes, name_tag, tag, content, List.drop_left]
  exact Tag.attributesFrom_spelled _ [] t.blank t.distinct (by simp)

end TagSpelling

/-- **Every tag without faults is spelled.** -/
theorem Tag.exists_spelling {tag : Tag} (h : tag.attributes.fault = none) :
    ∃ t : TagSpelling, t.tag = tag := by
  rw [Tag.attributes, Tag.name, drop_length_takeWhile] at h
  obtain ⟨as, blanks, hblank, hrest, hdistinct, _⟩ := exists_spelling_of_attributesFrom h
  have hsolid : ∀ b ∈ tag.name, isBlank b = false := fun b hb => by
    simpa using List.mem_takeWhile_imp hb
  have hparted : ∀ a ∈ as.head?, a.gap ≠ [] := by
    intro a ha hgap
    obtain ⟨rest, rfl⟩ : ∃ rest, as = a :: rest := List.head?_eq_some_iff.1 ha
    obtain ⟨b, key, hkey⟩ := List.exists_cons_of_ne_nil a.isKey.nonempty
    have hspelled : (a :: rest).flatMap AttributeSpelling.octets ++ blanks =
        b :: (key ++ (a.before ++ 0x3D :: (a.after ++ a.quote :: (a.value ++ a.quote ::
          (rest.flatMap AttributeSpelling.octets ++ blanks))))) := by
      simp [AttributeSpelling.octets, hgap, hkey]
    have hfirst := not_of_dropWhile_eq_cons (hrest.trans hspelled)
    have hb : isBlank b = false := a.isKey.solid b (by rw [hkey]; exact List.mem_cons_self)
    simp [hb] at hfirst
  refine ⟨⟨tag.name, as, blanks, hsolid, hparted, hblank, hdistinct⟩, ?_⟩
  rw [TagSpelling.tag, TagSpelling.content]
  dsimp only
  rw [← hrest, Tag.name, List.takeWhile_append_dropWhile]

/-- **The keys of a tag without faults are keys.** -/
theorem Tag.isKey_of_mem_attributes {tag : Tag} (h : tag.attributes.fault = none) {a : Attribute}
    (ha : a ∈ tag.attributes.list) : IsKey a.key := by
  obtain ⟨t, rfl⟩ := exists_spelling h
  rw [t.attributes_tag] at ha
  obtain ⟨s, _, rfl⟩ := List.mem_map.1 ha
  exact s.isKey

end RegistryGraph.Xml
