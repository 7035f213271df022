import RegistryGraph.Text.Utf8

/-!
# Texts and their octets

Decoding takes back encoding, and nothing else is decoded: every octet sequence that encodes a text
encodes it in one way only.  `Spells` lists the well-formed sequences with the numbers of their
characters; reading the front of an input finds these sequences, and encoding a character writes them.

* `decode_encode`: what has been encoded is decoded again.
* `decode_eq_ok_iff`: what is decoded has been encoded.
-/

namespace RegistryGraph.Utf8

/-! ## Octets as numbers -/

section
variable {b d : UInt8} {bs : Octets} {n : Nat}

/-- A number below 256 is the value of its octet. -/
theorem toNat_octet (h : n < 256) : (UInt8.ofNat n).toNat = n := Nat.mod_eq_of_lt h

/-- An octet is recovered from its value. -/
theorem ofNat_eq (b : UInt8) (h : n = b.toNat) : UInt8.ofNat n = b := by
  rw [h, UInt8.ofNat_toNat]

/-- A number that is a scalar value is the value of its character. -/
theorem toNat_char (h : n < 0xD800 ∨ 0xDFFF < n ∧ n < 0x110000) :
    (Char.ofNat n).toNat = n := by
  have hvalid : n.isValidChar := h
  rw [Char.ofNat, dif_pos hvalid]
  rfl

/-- Continuation octets, by their values. -/
theorem isContinuation_iff : isContinuation d = true ↔ 0x80 ≤ d.toNat ∧ d.toNat ≤ 0xBF := by
  simp [isContinuation, UInt8.le_iff_toNat_le]

/-- Which second octets a three-octet sequence takes: no overlong form and no surrogate. -/
theorem secondOfThree_iff :
    secondOfThree b d = true ↔ 0x80 ≤ d.toNat ∧ d.toNat ≤ 0xBF ∧
      (b.toNat = 0xE0 → 0xA0 ≤ d.toNat) ∧ (b.toNat = 0xED → d.toNat ≤ 0x9F) := by
  simp only [secondOfThree, isContinuation, ← UInt8.toNat_inj]
  split
  · simp_all [UInt8.le_iff_toNat_le]
    omega
  · split
    · simp_all [UInt8.le_iff_toNat_le]
      omega
    · simp_all [UInt8.le_iff_toNat_le]

/-- Which second octets a four-octet sequence takes: no overlong form and nothing above U+10FFFF. -/
theorem secondOfFour_iff :
    secondOfFour b d = true ↔ 0x80 ≤ d.toNat ∧ d.toNat ≤ 0xBF ∧
      (b.toNat = 0xF0 → 0x90 ≤ d.toNat) ∧ (b.toNat = 0xF4 → d.toNat ≤ 0x8F) := by
  simp only [secondOfFour, isContinuation, ← UInt8.toNat_inj]
  split
  · simp_all [UInt8.le_iff_toNat_le]
    omega
  · split
    · simp_all [UInt8.le_iff_toNat_le]
      omega
    · simp_all [UInt8.le_iff_toNat_le]

/-- The first octet says how long its sequence is. -/
theorem front_eq :
    front b bs =
      if b.toNat < 0x80 then .scalar (.ofNat b.toNat) 1 bs
      else if 0xC2 ≤ b.toNat ∧ b.toNat ≤ 0xDF then frontTwo b bs
      else if 0xE0 ≤ b.toNat ∧ b.toNat ≤ 0xEF then frontThree b bs
      else if 0xF0 ≤ b.toNat ∧ b.toNat ≤ 0xF4 then frontFour b bs
      else .invalid 1 bs := by
  simp only [front, UInt8.lt_iff_toNat_lt, UInt8.le_iff_toNat_le, Bool.and_eq_true,
    decide_eq_true_eq]
  rfl

end

/-! ## Well-formed sequences -/

/-- The octets of the character with the given number. -/
inductive Spells : Nat → Octets → Prop
  | one {b : UInt8} (first : b.toNat < 0x80) : Spells b.toNat [b]
  | two {b d : UInt8} (first : 0xC2 ≤ b.toNat ∧ b.toNat ≤ 0xDF) (second : isContinuation d = true) :
    Spells (b.toNat % 32 * 64 + payload d) [b, d]
  | three {b d e : UInt8} (first : 0xE0 ≤ b.toNat ∧ b.toNat ≤ 0xEF) (second : secondOfThree b d = true)
    (third : isContinuation e = true) :
    Spells ((b.toNat % 16 * 64 + payload d) * 64 + payload e) [b, d, e]
  | four {b d e f : UInt8} (first : 0xF0 ≤ b.toNat ∧ b.toNat ≤ 0xF4) (second : secondOfFour b d = true)
    (third : isContinuation e = true) (fourth : isContinuation f = true) :
    Spells (((b.toNat % 8 * 64 + payload d) * 64 + payload e) * 64 + payload f) [b, d, e, f]

variable {b : UInt8} {bs rest octets : Octets} {c : Char} {n : Nat}

/-- Spelling transported along an equation between the two numbers. -/
theorem Spells.of_eq {m : Nat} (h : m = n) (hm : Spells m octets) : Spells n octets := h ▸ hm

/-- A well-formed sequence at the front is read. -/
theorem Spells.front (h : Spells n octets) (rest : Octets) :
    ∃ b bs size, octets ++ rest = b :: bs ∧ front b bs = .scalar (.ofNat n) size rest := by
  cases h with
  | one first =>
      refine ⟨_, _, 1, rfl, ?_⟩
      rw [front_eq, if_pos first]
      rfl
  | two first second =>
      refine ⟨_, _, 2, rfl, ?_⟩
      rw [front_eq, if_neg (by omega), if_pos first]
      exact if_pos second
  | three first second third =>
      refine ⟨_, _, 3, rfl, ?_⟩
      rw [front_eq, if_neg (by omega), if_neg (by omega), if_pos first]
      exact (if_pos second).trans (if_pos third)
  | four first second third fourth =>
      refine ⟨_, _, 4, rfl, ?_⟩
      rw [front_eq, if_neg (by omega), if_neg (by omega), if_neg (by omega), if_pos first]
      exact (if_pos second).trans ((if_pos third).trans (if_pos fourth))

/-- A two-octet front that gives a scalar value spells it. -/
theorem frontTwo_eq_scalar {size : Nat} (h : frontTwo b bs = .scalar c size rest) :
    ∃ d, isContinuation d = true ∧ c = .ofNat (b.toNat % 32 * 64 + payload d) ∧
      bs = d :: rest := by
  unfold frontTwo at h
  grind

/-- A three-octet front that gives a scalar value spells it. -/
theorem frontThree_eq_scalar {size : Nat} (h : frontThree b bs = .scalar c size rest) :
    ∃ d e, secondOfThree b d = true ∧ isContinuation e = true ∧
      c = .ofNat ((b.toNat % 16 * 64 + payload d) * 64 + payload e) ∧ bs = d :: e :: rest := by
  unfold frontThree at h
  grind

/-- A four-octet front that gives a scalar value spells it. -/
theorem frontFour_eq_scalar {size : Nat} (h : frontFour b bs = .scalar c size rest) :
    ∃ d e f, secondOfFour b d = true ∧ isContinuation e = true ∧ isContinuation f = true ∧
      c = .ofNat (((b.toNat % 8 * 64 + payload d) * 64 + payload e) * 64 + payload f) ∧
      bs = d :: e :: f :: rest := by
  unfold frontFour at h
  grind

/-- Nothing but a well-formed sequence is read. -/
theorem exists_spells_of_front {size : Nat} (h : front b bs = .scalar c size rest) :
    ∃ n octets, Spells n octets ∧ c = .ofNat n ∧ b :: bs = octets ++ rest := by
  rw [front_eq] at h
  split at h
  next first =>
    cases h
    exact ⟨_, _, .one first, rfl, rfl⟩
  split at h
  next first =>
    obtain ⟨d, second, hc, rfl⟩ := frontTwo_eq_scalar h
    exact ⟨_, _, .two first second, hc, rfl⟩
  split at h
  next first =>
    obtain ⟨d, e, second, third, hc, rfl⟩ := frontThree_eq_scalar h
    exact ⟨_, _, .three first second third, hc, rfl⟩
  split at h
  next first =>
    obtain ⟨d, e, f, second, third, fourth, hc, rfl⟩ := frontFour_eq_scalar h
    exact ⟨_, _, .four first second third fourth, hc, rfl⟩
  next => cases h

/-- The number of a well-formed sequence is that of a character. -/
theorem Spells.valid (h : Spells n octets) : n < 0xD800 ∨ 0xDFFF < n ∧ n < 0x110000 := by
  cases h with
  | one first => omega
  | two first second =>
      unfold payload
      omega
  | three first second third =>
      rw [secondOfThree_iff] at second
      rw [isContinuation_iff] at third
      unfold payload
      omega
  | four first second third fourth =>
      rw [secondOfFour_iff] at second
      rw [isContinuation_iff] at third fourth
      unfold payload
      omega

/-- A well-formed sequence is how its character is encoded. -/
theorem Spells.eq_encodeChar (h : Spells n octets) :
    octets = String.utf8EncodeChar (.ofNat n) := by
  have hn : (Char.ofNat n).val.toNat = n := toNat_char h.valid
  unfold String.utf8EncodeChar
  rw [hn]
  dsimp only
  cases h with
  | @one b first => rw [if_pos (by omega), UInt8.ofNat_toNat]
  | @two b d first second =>
      rw [isContinuation_iff] at second
      unfold payload
      rw [if_neg (by omega), if_pos (by omega), ofNat_eq b (by omega), ofNat_eq d (by omega)]
  | @three b d e first second third =>
      rw [secondOfThree_iff] at second
      rw [isContinuation_iff] at third
      unfold payload
      rw [if_neg (by omega), if_neg (by omega), if_pos (by omega), ofNat_eq b (by omega),
        ofNat_eq d (by omega), ofNat_eq e (by omega)]
  | @four b d e f first second third fourth =>
      rw [secondOfFour_iff] at second
      rw [isContinuation_iff] at third fourth
      unfold payload
      rw [if_neg (by omega), if_neg (by omega), if_neg (by omega), ofNat_eq b (by omega),
        ofNat_eq d (by omega), ofNat_eq e (by omega), ofNat_eq f (by omega)]

/-- The octets of a character are a well-formed sequence. -/
theorem spells_encodeChar (c : Char) : Spells c.toNat (String.utf8EncodeChar c) := by
  have hvalid : c.toNat < 0xD800 ∨ 0xDFFF < c.toNat ∧ c.toNat < 0x110000 := c.valid
  unfold String.utf8EncodeChar
  rw [show c.val.toNat = c.toNat from rfl]
  generalize c.toNat = n at hvalid ⊢
  dsimp only
  split
  next h1 =>
    have hb : (UInt8.ofNat n).toNat = n := toNat_octet (by omega)
    refine Spells.of_eq hb (.one ?_)
    omega
  split
  next h1 h2 =>
    have hb : (UInt8.ofNat (n / 64 % 32 + 192)).toNat = n / 64 % 32 + 192 := toNat_octet (by omega)
    have hd : (UInt8.ofNat (n % 64 + 128)).toNat = n % 64 + 128 := toNat_octet (by omega)
    refine Spells.of_eq ?_ (.two ?_ (isContinuation_iff.2 ?_))
    · unfold payload
      omega
    · omega
    · omega
  split
  next h1 h2 h3 =>
    have hb : (UInt8.ofNat (n / 4096 % 16 + 224)).toNat = n / 4096 % 16 + 224 :=
      toNat_octet (by omega)
    have hd : (UInt8.ofNat (n / 64 % 64 + 128)).toNat = n / 64 % 64 + 128 := toNat_octet (by omega)
    have he : (UInt8.ofNat (n % 64 + 128)).toNat = n % 64 + 128 := toNat_octet (by omega)
    refine Spells.of_eq ?_ (.three ?_ (secondOfThree_iff.2 ?_) (isContinuation_iff.2 ?_))
    · unfold payload
      omega
    · omega
    · omega
    · omega
  next h1 h2 h3 =>
    have hb : (UInt8.ofNat (n / 262144 % 8 + 240)).toNat = n / 262144 % 8 + 240 :=
      toNat_octet (by omega)
    have hd : (UInt8.ofNat (n / 4096 % 64 + 128)).toNat = n / 4096 % 64 + 128 :=
      toNat_octet (by omega)
    have he : (UInt8.ofNat (n / 64 % 64 + 128)).toNat = n / 64 % 64 + 128 := toNat_octet (by omega)
    have hf : (UInt8.ofNat (n % 64 + 128)).toNat = n % 64 + 128 := toNat_octet (by omega)
    refine Spells.of_eq ?_
      (.four ?_ (secondOfFour_iff.2 ?_) (isContinuation_iff.2 ?_) (isContinuation_iff.2 ?_))
    · unfold payload
      omega
    · omega
    · omega
    · omega
    · omega

/-! ## Texts -/

/-- Decoding continues behind a character. -/
theorem decodeFrom_encodeChar (index : Nat) (done : List Char) (c : Char) (rest : Octets) :
    ∃ index', decodeFrom index done (String.utf8EncodeChar c ++ rest) =
      decodeFrom index' (c :: done) rest := by
  obtain ⟨b, bs, size, hoctets, hfront⟩ := (spells_encodeChar c).front rest
  rw [Char.ofNat_toNat] at hfront
  refine ⟨index + size, ?_⟩
  rw [hoctets, decodeFrom]
  split
  next c' size' rest' h =>
    rw [hfront] at h
    cases h
    rfl
  next h =>
    rw [hfront] at h
    cases h
  next h =>
    rw [hfront] at h
    cases h

/-- Decoding recovers encoded characters, behind those already done. -/
theorem decodeFrom_encode (index : Nat) (done cs : List Char) :
    decodeFrom index done (cs.flatMap String.utf8EncodeChar) = .ok (done.reverse ++ cs) := by
  induction cs generalizing index done with
  | nil => simp [decodeFrom]
  | cons c cs ih =>
      obtain ⟨index', hstep⟩ :=
        decodeFrom_encodeChar index done c (cs.flatMap String.utf8EncodeChar)
      rw [List.flatMap_cons, hstep, ih, List.reverse_cons, List.append_assoc, List.singleton_append]

/-- **What has been encoded is decoded again.** -/
theorem decode_encode (s : String) : decode (encode s) = .ok s := by
  rw [decode, encode, decodeFrom_encode]
  exact congrArg Except.ok (String.ofList_toList (s := s))

/-- The lossy decoder recovers an encoded character and goes on behind it. -/
theorem decodeLossyFrom_encodeChar (done : List Char) (c : Char) (rest : Octets) :
    decodeLossyFrom done (String.utf8EncodeChar c ++ rest) = decodeLossyFrom (c :: done) rest := by
  obtain ⟨b, bs, size, hoctets, hfront⟩ := (spells_encodeChar c).front rest
  rw [Char.ofNat_toNat] at hfront
  rw [hoctets, decodeLossyFrom]
  split
  next c' size' rest' h =>
    rw [hfront] at h
    cases h
    rfl
  next h =>
    rw [hfront] at h
    cases h
  next h =>
    rw [hfront] at h
    cases h

/-- The lossy decoder recovers encoded characters, behind those already done. -/
theorem decodeLossyFrom_encode (done cs : List Char) :
    decodeLossyFrom done (cs.flatMap String.utf8EncodeChar) = done.reverse ++ cs := by
  induction cs generalizing done with
  | nil => simp [decodeLossyFrom]
  | cons c cs ih =>
      rw [List.flatMap_cons, decodeLossyFrom_encodeChar, ih, List.reverse_cons, List.append_assoc,
        List.singleton_append]

/-- Nothing is replaced in what has been encoded. -/
theorem decodeLossy_encode (s : String) : decodeLossy (encode s) = s := by
  rw [decodeLossy, encode, decodeLossyFrom_encode]
  exact String.ofList_toList

/-- Octets that decode are the encoding of what they decode to. -/
theorem flatMap_of_decodeFrom {index : Nat} {done cs : List Char}
    (h : decodeFrom index done bs = .ok cs) :
    ∃ more, cs = done.reverse ++ more ∧ bs = more.flatMap String.utf8EncodeChar := by
  fun_induction decodeFrom index done bs with
  | case1 index done =>
      cases h
      exact ⟨[], by simp⟩
  | case2 index done b rest c size rest' hfront hle ih =>
      obtain ⟨more, rfl, hrest⟩ := ih h
      obtain ⟨n, octets, hspells, rfl, hoctets⟩ := exists_spells_of_front hfront
      refine ⟨.ofNat n :: more, by simp, ?_⟩
      rw [hoctets, hrest, hspells.eq_encodeChar, List.flatMap_cons]
  | case3 => cases h
  | case4 => cases h

/-- **What is decoded has been encoded.** -/
theorem decode_eq_ok_iff {s : String} : decode bs = .ok s ↔ bs = encode s := by
  constructor
  · intro h
    unfold decode at h
    cases hchars : decodeFrom 0 [] bs with
    | error fault =>
        rw [hchars] at h
        cases h
    | ok cs =>
        rw [hchars] at h
        cases h
        obtain ⟨more, rfl, hbs⟩ := flatMap_of_decodeFrom hchars
        rw [hbs, encode, String.toList_ofList]
  · intro h
    rw [h, decode_encode]

/-- A concatenation is encoded part by part. -/
theorem encode_append (s t : String) : encode (s ++ t) = encode s ++ encode t := by
  rw [encode, String.toList_append, List.flatMap_append, encode, encode]

/-- Only the empty string is encoded by no octets. -/
theorem encode_eq_nil_iff {s : String} : encode s = [] ↔ s = "" := by
  constructor
  · intro h
    have hsame : decode (encode s) = decode (encode "") := congrArg decode h
    rw [decode_encode, decode_encode] at hsame
    exact Except.ok.inj hsame
  · rintro rfl
    rfl

/-- An ASCII octet stands for its character wherever it occurs. -/
theorem Spells.eq_of_mem_ascii (h : Spells n octets) (hb : b ∈ octets) (hascii : b.toNat < 0x80) :
    n = b.toNat := by
  cases h with
  | one first =>
      rw [List.mem_singleton.1 hb]
  | two first second =>
      rw [isContinuation_iff] at second
      simp only [List.mem_cons, List.not_mem_nil, or_false] at hb
      rcases hb with rfl | rfl <;> omega
  | three first second third =>
      rw [secondOfThree_iff] at second
      rw [isContinuation_iff] at third
      simp only [List.mem_cons, List.not_mem_nil, or_false] at hb
      rcases hb with rfl | rfl | rfl <;> omega
  | four first second third fourth =>
      rw [secondOfFour_iff] at second
      rw [isContinuation_iff] at third fourth
      simp only [List.mem_cons, List.not_mem_nil, or_false] at hb
      rcases hb with rfl | rfl | rfl | rfl <;> omega

/-- An ASCII octet of an encoded string is a character of the string. -/
theorem mem_of_mem_encode {s : String} (hb : b ∈ encode s) (hascii : b.toNat < 0x80) :
    Char.ofNat b.toNat ∈ s.toList := by
  obtain ⟨c, hc, hb⟩ := List.mem_flatMap.1 hb
  have hn : c.toNat = b.toNat := (spells_encodeChar c).eq_of_mem_ascii hb hascii
  rwa [← hn, Char.ofNat_toNat]

/-- An ASCII character is one octet. -/
theorem Spells.eq_singleton (h : Spells n octets) (hascii : n < 0x80) : octets = [UInt8.ofNat n] := by
  cases h with
  | one first => rw [UInt8.ofNat_toNat]
  | two first second => omega
  | three first second third =>
      rw [secondOfThree_iff] at second
      unfold payload at hascii
      omega
  | four first second third fourth =>
      rw [secondOfFour_iff] at second
      unfold payload at hascii
      omega

/-- What follows an ill-formed sequence is part of the input. -/
theorem suffix_of_front_invalid {size : Nat} (h : front b bs = .invalid size rest) : rest <:+ bs := by
  unfold front frontTwo frontThree frontFour at h
  grind [List.suffix_cons_iff]

/-- An ASCII character that lossy decoding gives was an octet of the input. -/
theorem mem_of_mem_decodeLossyFrom {done : List Char} (hc : c ∈ decodeLossyFrom done bs)
    (hascii : c.toNat < 0x80) : c ∈ done ∨ UInt8.ofNat c.toNat ∈ bs := by
  have hreplacement : c ≠ replacement := by
    rintro rfl
    revert hascii
    decide
  fun_induction decodeLossyFrom done bs with
  | case1 done => exact .inl (List.mem_reverse.1 hc)
  | case2 done b rest d size rest' hfront hle ih =>
      obtain ⟨n, octets, hspells, rfl, hoctets⟩ := exists_spells_of_front hfront
      rw [hoctets]
      rcases ih hc with hdone | hrest
      · rcases List.mem_cons.1 hdone with rfl | hdone
        · rw [toNat_char hspells.valid] at hascii ⊢
          rw [hspells.eq_singleton hascii]
          exact .inr List.mem_cons_self
        · exact .inl hdone
      · exact .inr (List.mem_append_right _ hrest)
  | case3 done b rest size rest' hfront hle ih =>
      rcases ih hc with hdone | hrest
      · rcases List.mem_cons.1 hdone with heq | hdone
        · exact absurd heq hreplacement
        · exact .inl hdone
      · exact .inr (List.mem_cons_of_mem _ ((suffix_of_front_invalid hfront).subset hrest))
  | case4 done b rest hfront =>
      rcases List.mem_cons.1 (List.mem_reverse.1 hc) with heq | hdone
      · exact absurd heq hreplacement
      · exact .inl hdone

/-- **ASCII characters are read from their octets**, whatever is replaced around them. -/
theorem mem_of_mem_decodeLossy (hc : c ∈ (decodeLossy bs).toList) (hascii : c.toNat < 0x80) :
    UInt8.ofNat c.toNat ∈ bs := by
  rw [decodeLossy, String.toList_ofList] at hc
  exact (mem_of_mem_decodeLossyFrom hc hascii).resolve_left List.not_mem_nil

end RegistryGraph.Utf8
