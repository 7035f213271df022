import RegistryGraph.Proofs.Json.Members
import RegistryGraph.Proofs.Json.Reading

/-!
# Values read back

A value that has been written on one line is read back as it was, if it has no floating-point numbers and
is not nested too deeply.  (Of a floating-point number only as many digits are written as single it out,
and the reader rounds more than once.)  The induction is over the value; the reader's state carries the
containers that are open around it.  Only at the octet behind it does the reader notice the end of a
number, so a value that has been read may still be pending.

* `Json.State.Holds`: a value has been read, up to what the next octet tells.
* `Json.State.isReadable_of_isExact`: every exact value is read, or refused for its depth.
* `Json.parseRaw_compact`, `Json.canonical_of_isOrdered`: the reader undoes the writer.
-/

namespace RegistryGraph.Json

/-- How many containers are open at most at any place in a value. -/
def depth : Json → Nat
  | .array items => depthOfItems items + 1
  | .object members => depthOfMembers members + 1
  | _ => 0
where
  /-- The greatest depth of the items. -/
  depthOfItems : List Json → Nat
    | [] => 0
    | v :: rest => max (depth v) (depthOfItems rest)
  /-- The greatest depth of the values of the members. -/
  depthOfMembers : List (String × Json) → Nat
    | [] => 0
    | (_, v) :: rest => max (depth v) (depthOfMembers rest)

/-- Items fit the depth that is left exactly if each of them does. -/
theorem depthOfItems_lt_iff {items : List Json} {n limit : Nat} (h : n + 1 < limit) :
    n + (depth.depthOfItems items + 1) < limit ↔ ∀ v ∈ items, n + 1 + v.depth < limit := by
  induction items with
  | nil => exact iff_of_true h (List.forall_mem_nil _)
  | cons v rest ih =>
      rw [List.forall_mem_cons, ← ih, depth.depthOfItems]
      omega

/-- Members are as deep as their values. -/
theorem depthOfMembers_eq (members : List (String × Json)) :
    depth.depthOfMembers members = depth.depthOfItems (members.map (·.2)) := by
  induction members with
  | nil => rfl
  | cons m rest ih => rw [depth.depthOfMembers, ih, List.map_cons, depth.depthOfItems]

/-- Whether a value has no floating-point numbers; its integers are those that fit. -/
inductive IsExact : Json → Prop
  | null : IsExact .null
  | bool (b : Bool) : IsExact (.bool b)
  | integer {n : Int} (least : -(Nat.pow 2 63 : Nat) ≤ n) (greatest : n ≤ Numeral.significandLimit) :
      IsExact (.number (.integer n))
  | string (s : String) : IsExact (.string s)
  | array {items : List Json} (exact_items : ∀ v ∈ items, IsExact v) : IsExact (.array items)
  | object {members : List (String × Json)} (exact_members : ∀ m ∈ members, IsExact m.2) :
      IsExact (.object members)

namespace State

/-- The octets that can follow a value in a container. -/
def IsEnd (b : UInt8) : Prop := b = 0x2C ∨ b = 0x5D ∨ b = 0x7D

/-- **A value has been read** inside the open containers. -/
inductive Holds (v : Json) (stack : List Container) : State → Prop
  | delivered : Holds v stack (deliver v stack)
  /-- A number of which the end has not been seen. -/
  | pending {negative : Bool} {n : Numeral} {number : Number} (v_eq : v = .number number)
      (value_eq : n.value negative = .ok number) (ends : ∀ b, IsEnd b → n.step b = .ok none) :
      Holds v stack ⟨.number negative n, stack⟩

variable {v : Json} {s s' : State} {b : UInt8} {stack : List Container} {done items : List Json}
  {members : List (String × Json)} {key : String}

/-- At an octet that can follow, it does not matter whether the end has been seen. -/
theorem Holds.step (h : Holds v stack s) (hb : IsEnd b) : s.step b = (deliver v stack).step b := by
  cases h with
  | delivered => rfl
  | pending hv hvalue hends =>
      subst hv
      rw [State.step]
      dsimp only
      rw [hends b hb]
      dsimp only
      rw [hvalue]
      cases stack with
      | nil => rfl
      | cons c outer => cases c <;> rfl

/-- A reader that holds a value with nothing open ends with it. -/
theorem Holds.finish (h : Holds v [] s) : s.finish = .ok v := by
  cases h with
  | delivered => rfl
  | pending hv hvalue _ =>
      subst hv
      rw [State.finish]
      dsimp only
      rw [hvalue]

/-- What becomes of some octets: if the nesting keeps within its limit, they lead to a state of a certain
kind; otherwise the reader stops. -/
def Yields (s : State) (xs : Octets) (within : Prop) (P : State → Prop) : Prop :=
  (within → ∃ s', Reads s xs s' ∧ P s') ∧ (¬within → Stops .tooDeep s xs)

section
variable {P Q : State → Prop} {within within' : Prop} {s₁ : State} {xs ys : Octets}

/-- Reading without a limit in the way yields. -/
theorem Yields.of_reads (hwithin : within) (hreads : Reads s xs s') (hP : P s') :
    Yields s xs within P :=
  ⟨fun _ => ⟨s', hreads, hP⟩, fun hnot => absurd hwithin hnot⟩

/-- A yield may be put behind a first step. -/
theorem Yields.cons (first : s.step b = .ok s₁) (h : Yields s₁ xs within P) :
    Yields s (b :: xs) within P := by
  refine ⟨fun hwithin => ?_, fun hnot => .later first (h.2 hnot)⟩
  obtain ⟨s', hreads, hP⟩ := h.1 hwithin
  exact ⟨s', .cons first hreads, hP⟩

/-- What follows is read only if nothing before it is nested too deeply. -/
theorem Yields.append (h : Yields s xs within P) (h' : ∀ s₁, P s₁ → Yields s₁ ys within' Q) :
    Yields s (xs ++ ys) (within ∧ within') Q := by
  constructor
  · rintro ⟨hwithin, hwithin'⟩
    obtain ⟨s₁, hreads, hP⟩ := h.1 hwithin
    obtain ⟨s', hreads', hQ⟩ := (h' s₁ hP).1 hwithin'
    exact ⟨s', hreads.append hreads', hQ⟩
  · intro hnot
    by_cases hwithin : within
    · obtain ⟨s₁, hreads, hP⟩ := h.1 hwithin
      exact hreads.stops ((h' s₁ hP).2 fun hwithin' => hnot ⟨hwithin, hwithin'⟩)
    · exact (h.2 hwithin).append ys

end

/-- Whether a value is read back, wherever it stands, if there is room for what is nested in it. -/
def IsReadable (v : Json) : Prop :=
  ∀ (place : Place) (stack : List Container), stack.length < depthLimit →
    Yields ⟨.value place, stack⟩ (octets (chars v)) (stack.length + v.depth < depthLimit) (Holds v stack)

/-! ## Scalars -/

/-- A value begins with an octet that is no blank and closes nothing. -/
theorem step_value {place : Place} (hblank : isBlank b = false) (hbracket : b ≠ 0x5D) :
    step b ⟨.value place, stack⟩ = beginValue b stack := by
  rw [step]
  dsimp only
  rw [hblank, if_neg Bool.false_ne_true]
  cases place with
  | required => rfl
  | firstItem | nextItem => exact if_neg hbracket

/-- A number without a sign begins as if the sign had been read. -/
theorem step_value_of_digit {place : Place} {d : Nat} (h : digit? b = some d) :
    step b ⟨.value place, stack⟩ = step b ⟨.number false .sign, stack⟩ := by
  have hrange : 0x30 ≤ b.toNat ∧ b.toNat ≤ 0x39 := by
    rw [digit?, Option.ite_none_right_eq_some, Bool.and_eq_true, decide_eq_true_eq,
      decide_eq_true_eq, UInt8.le_iff_toNat_le, UInt8.le_iff_toNat_le] at h
    exact h.1
  have hne : ∀ c : UInt8, c.toNat < 0x30 ∨ 0x39 < c.toNat → b ≠ c := by
    rintro c hc rfl
    omega
  have hblank : isBlank b = false := by
    simp [isBlank, hne 0x20 (by decide), hne 0x0A (by decide), hne 0x09 (by decide),
      hne 0x0D (by decide)]
  rw [step_value hblank (hne 0x5D (by decide)), beginValue, if_neg (hne 0x6E (by decide)),
    if_neg (hne 0x74 (by decide)), if_neg (hne 0x66 (by decide)), if_neg (hne 0x22 (by decide)),
    if_neg (hne 0x5B (by decide)), if_neg (hne 0x7B (by decide)), if_neg (hne 0x2D (by decide)),
    step_number (step_sign h), h, wholeOf]
  cases d with
  | zero => rfl
  | succ d => rfl

/-- A natural number begins with a digit. -/
theorem digits_eq_cons (n : Nat) : ∃ b d rest, octets (digits n) = b :: rest ∧ digit? b = some d := by
  induction n using Nat.strongRecOn with
  | ind n ih =>
      by_cases hsmall : n < 10
      · obtain ⟨hencode, hdigit⟩ := digit?_digitChar hsmall
        exact ⟨_, n, [], by rw [digits, Nat.toDigits_of_lt_base hsmall, octets_singleton, hencode], hdigit⟩
      · obtain ⟨b, d, rest, hoctets, hdigit⟩ := ih (n / 10) (by omega)
        refine ⟨b, d, rest ++ octets [Nat.digitChar (n % 10)], ?_, hdigit⟩
        rw [digits, Nat.toDigits_of_base_le (by decide) (Nat.not_lt.1 hsmall), octets_append]
        rw [digits] at hoctets
        rw [hoctets, List.cons_append]

/-- A whole number is over where something ends it. -/
theorem ends_wholeOf (n : Nat) (hb : IsEnd b) : (wholeOf n).step b = .ok none := by
  rw [wholeOf]
  rcases hb with rfl | rfl | rfl <;> split <;> rfl

/-- **An integer is read.** -/
theorem holds_integer {n : Int} (hleast : -(Nat.pow 2 63 : Nat) ≤ n)
    (hgreatest : n ≤ Numeral.significandLimit) (place : Place) (stack : List Container) :
    ∃ s, Reads ⟨.value place, stack⟩ (octets (integerChars n)) s ∧
      Holds (.number (.integer n)) stack s := by
  rw [integerChars]
  split
  next hnegative =>
    have habs : n.natAbs ≤ Nat.pow 2 63 := by omega
    have hfits : n.natAbs ≤ Numeral.significandLimit := Nat.le_trans habs (by decide)
    have hsign : step 0x2D ⟨.value place, stack⟩ = .ok ⟨.number true .sign, stack⟩ :=
      (step_value rfl (by decide)).trans rfl
    have hoctets : octets ('-' :: digits n.natAbs) = 0x2D :: octets (digits n.natAbs) := rfl
    rw [hoctets]
    refine ⟨_, .cons hsign (reads_digits true hfits), ?_⟩
    refine .pending rfl ?_ fun b => ends_wholeOf _
    rw [wholeOf, if_neg (by omega), Numeral.value, if_neg (by decide), if_pos habs]
    exact congrArg (fun m => Except.ok (Number.integer m)) (by omega)
  next hpositive =>
    have hfits : n.natAbs ≤ Numeral.significandLimit := by omega
    obtain ⟨b, d, rest, hoctets, hdigit⟩ := digits_eq_cons n.natAbs
    have hreads : Reads ⟨.number false .sign, stack⟩ (octets (digits n.natAbs))
        ⟨.number false (wholeOf n.natAbs), stack⟩ := reads_digits false hfits
    rw [hoctets] at hreads ⊢
    cases hreads with
    | cons first others =>
        refine ⟨_, .cons ((step_value_of_digit hdigit).trans first) others, ?_⟩
        refine .pending rfl ?_ fun b => ends_wholeOf _
        rw [wholeOf]
        split
        next hzero =>
          obtain rfl : n = 0 := by omega
          rfl
        next hpos =>
          rw [Numeral.value, Bool.not_false, if_pos rfl]
          exact congrArg (fun m => Except.ok (Number.integer m)) (by omega)

/-- The letters of a literal behind the first. -/
theorem reads_literal {l : UInt8} {letters : Octets} :
    Reads ⟨.literal (l :: letters) v, stack⟩ (l :: letters) (deliver v stack) := by
  induction letters generalizing l with
  | nil => exact .one (if_neg (not_not.2 rfl))
  | cons m rest ih => exact .cons (if_neg (not_not.2 rfl)) ih

/-- The three literals read back, given how their first letter begins one. -/
theorem isReadable_literal {l : UInt8} {letters : Octets} (hblank : isBlank b = false)
    (hbracket : b ≠ 0x5D) (hdepth : v.depth = 0)
    (hbegin : ∀ stack, beginValue b stack = .ok ⟨.literal (l :: letters) v, stack⟩)
    (hoctets : octets (chars v) = b :: l :: letters) : IsReadable v := by
  intro place stack hroom
  have hfirst : step b ⟨.value place, stack⟩ = .ok ⟨.literal (l :: letters) v, stack⟩ :=
    (step_value hblank hbracket).trans (hbegin stack)
  rw [hoctets, hdepth]
  exact .of_reads hroom (.cons hfirst reads_literal) .delivered

/-- Every integer in the range of a signed or an unsigned 64-bit number reads back. -/
theorem isReadable_integer {n : Int} (hleast : -(Nat.pow 2 63 : Nat) ≤ n)
    (hgreatest : n ≤ Numeral.significandLimit) : IsReadable (.number (.integer n)) := by
  intro place stack hroom
  obtain ⟨s, hreads, hs⟩ := holds_integer hleast hgreatest place stack
  exact .of_reads hroom hreads hs

/-- Every string reads back. -/
theorem isReadable_string (text : String) : IsReadable (.string text) := by
  intro place stack hroom
  have hquote : step 0x22 ⟨.value place, stack⟩ = .ok ⟨.string false .start, stack⟩ :=
    (step_value rfl (by decide)).trans rfl
  have htext : Reads ⟨.string false .start, stack⟩
      (octets (text.toList.flatMap escapeChar ++ ['"'])) (deliver (.string text) stack) := by
    refine reads_quotation fun read hread => ?_
    rw [closeString, hread]
    rfl
  have hoctets : octets (chars (.string text)) =
      0x22 :: octets (text.toList.flatMap escapeChar ++ ['"']) := by
    rw [chars, quoted]
    rfl
  rw [hoctets]
  exact .of_reads hroom (.cons hquote htext) .delivered

/-! ## Containers -/

/-- The items behind the first, and the end of the list. -/
theorem yields_itemsAfter (hitems : ∀ v ∈ items, IsReadable v) (hroom : stack.length + 1 < depthLimit)
    (hs : Holds v (.list done :: stack) s) :
    Yields s (octets (itemCharsAfter items ++ [']']))
      (∀ w ∈ items, stack.length + 1 + w.depth < depthLimit)
      (Holds (.array (done.reverse ++ v :: items)) stack) := by
  induction items generalizing v done s with
  | nil =>
      have hclose : s.step 0x5D = .ok (deliver (.array (v :: done).reverse) stack) :=
        hs.step (.inr (.inl rfl))
      rw [List.reverse_cons] at hclose
      exact .of_reads (List.forall_mem_nil _) (.one hclose) .delivered
  | cons w rest ih =>
      rw [List.forall_mem_cons] at hitems
      have hcomma : s.step 0x2C = .ok ⟨.value .nextItem, .list (v :: done) :: stack⟩ :=
        hs.step (.inl rfl)
      have hoctets : octets (itemCharsAfter (w :: rest) ++ [']']) =
          0x2C :: (octets (chars w) ++ octets (itemCharsAfter rest ++ [']'])) := by
        rw [itemCharsAfter, ← octets_append, ← List.append_assoc]
        rfl
      have hshifted : done.reverse ++ v :: w :: rest = (v :: done).reverse ++ w :: rest := by
        rw [List.reverse_cons, List.append_assoc, List.singleton_append]
      rw [hoctets, List.forall_mem_cons, hshifted]
      exact .cons hcomma ((hitems.1 .nextItem (.list (v :: done) :: stack) hroom).append
        fun s₁ hs₁ => ih hitems.2 hs₁)

/-- An array reads back if its items do, as far as the depth allows. -/
theorem isReadable_array (hitems : ∀ v ∈ items, IsReadable v) : IsReadable (.array items) := by
  intro place stack _
  have hopens : step 0x5B ⟨.value place, stack⟩ =
      openContainer (.list []) (.value .firstItem) stack :=
    step_value rfl (by decide)
  rw [openContainer] at hopens
  have hoctets : octets (chars (.array items)) = 0x5B :: octets (itemChars items ++ [']']) := by
    rw [chars]
    rfl
  rw [hoctets, depth]
  by_cases hroom : stack.length + 1 < depthLimit
  · rw [if_pos hroom] at hopens
    rw [depthOfItems_lt_iff hroom]
    refine .cons hopens ?_
    cases items with
    | nil =>
        have hclose : step 0x5D ⟨.value .firstItem, .list [] :: stack⟩ =
            .ok (deliver (.array []) stack) := rfl
        exact .of_reads (List.forall_mem_nil _) (.one hclose) .delivered
    | cons v rest =>
        rw [List.forall_mem_cons] at hitems
        rw [itemChars, List.append_assoc, octets_append, List.forall_mem_cons]
        exact (hitems.1 .firstItem (.list [] :: stack) hroom).append
          fun s hs => yields_itemsAfter hitems.2 hroom hs
  · rw [if_neg hroom] at hopens
    refine ⟨fun hwithin => ?_, fun _ => .here hopens⟩
    omega

/-- A key and its value, read from where a key is expected. -/
theorem yields_member (key : String) (hv : IsReadable v) (hroom : stack.length + 1 < depthLimit)
    (hquote : s.step 0x22 = .ok ⟨.string true .start, .object members :: stack⟩) :
    Yields s (octets (quoted key ++ ':' :: chars v)) (stack.length + 1 + v.depth < depthLimit)
      (Holds v (.member members key :: stack)) := by
  have hkey : Reads ⟨.string true .start, .object members :: stack⟩
      (octets (key.toList.flatMap escapeChar ++ ['"'])) ⟨.colon, .member members key :: stack⟩ := by
    refine reads_quotation fun read hread => ?_
    rw [closeString, hread]
    rfl
  have hcolon : step 0x3A ⟨.colon, .member members key :: stack⟩ =
      .ok ⟨.value .required, .member members key :: stack⟩ := rfl
  have hoctets : octets (quoted key ++ ':' :: chars v) =
      0x22 :: (octets (key.toList.flatMap escapeChar ++ ['"']) ++ 0x3A :: octets (chars v)) := by
    rw [quoted, octets_append]
    rfl
  have hvalue := hv .required (.member members key :: stack) hroom
  rw [hoctets]
  refine .cons hquote ⟨fun hwithin => ?_, fun hnot => ?_⟩
  · obtain ⟨s', hreads, hs'⟩ := hvalue.1 hwithin
    exact ⟨s', hkey.append (.cons hcolon hreads), hs'⟩
  · exact hkey.stops (.later hcolon (hvalue.2 hnot))

/-- The members behind the first, and the end of the object. -/
theorem yields_membersAfter {done : List (String × Json)} (hmembers : ∀ m ∈ members, IsReadable m.2)
    (hroom : stack.length + 1 < depthLimit) (hs : Holds v (.member done key :: stack) s) :
    Yields s (octets (memberCharsAfter members ++ ['}']))
      (∀ m ∈ members, stack.length + 1 + m.2.depth < depthLimit)
      (Holds (.object (done.reverse ++ (key, v) :: members)) stack) := by
  induction members generalizing v done key s with
  | nil =>
      have hclose : s.step 0x7D = .ok (deliver (.object ((key, v) :: done).reverse) stack) :=
        hs.step (.inr (.inr rfl))
      rw [List.reverse_cons] at hclose
      exact .of_reads (List.forall_mem_nil _) (.one hclose) .delivered
  | cons m rest ih =>
      obtain ⟨k, w⟩ := m
      rw [List.forall_mem_cons] at hmembers
      have hcomma : s.step 0x2C = .ok ⟨.nextKey, .object ((key, v) :: done) :: stack⟩ :=
        hs.step (.inl rfl)
      have hquote : step 0x22 ⟨.nextKey, .object ((key, v) :: done) :: stack⟩ =
          .ok ⟨.string true .start, .object ((key, v) :: done) :: stack⟩ := rfl
      have hoctets : octets (memberCharsAfter ((k, w) :: rest) ++ ['}']) =
          0x2C :: (octets (quoted k ++ ':' :: chars w) ++
            octets (memberCharsAfter rest ++ ['}'])) := by
        rw [memberCharsAfter, ← octets_append]
        simp only [List.append_assoc, List.cons_append]
        rfl
      have hshifted : done.reverse ++ (key, v) :: (k, w) :: rest =
          ((key, v) :: done).reverse ++ (k, w) :: rest := by
        rw [List.reverse_cons, List.append_assoc, List.singleton_append]
      rw [hoctets, List.forall_mem_cons, hshifted]
      exact .cons hcomma ((yields_member k hmembers.1 hroom hquote).append
        fun s₁ hs₁ => ih hmembers.2 hs₁)

/-- An object reads back if its values do, as far as the depth allows. -/
theorem isReadable_object (hmembers : ∀ m ∈ members, IsReadable m.2) :
    IsReadable (.object members) := by
  intro place stack _
  have hopens : step 0x7B ⟨.value place, stack⟩ = openContainer (.object []) .firstKey stack :=
    step_value rfl (by decide)
  rw [openContainer] at hopens
  have hoctets : octets (chars (.object members)) = 0x7B :: octets (memberChars members ++ ['}']) := by
    rw [chars]
    rfl
  rw [hoctets, depth]
  by_cases hroom : stack.length + 1 < depthLimit
  · rw [if_pos hroom] at hopens
    rw [depthOfMembers_eq, depthOfItems_lt_iff hroom, List.forall_mem_map]
    refine .cons hopens ?_
    cases members with
    | nil =>
        have hclose : step 0x7D ⟨.firstKey, .object [] :: stack⟩ =
            .ok (deliver (.object []) stack) := rfl
        exact .of_reads (List.forall_mem_nil _) (.one hclose) .delivered
    | cons m rest =>
        obtain ⟨k, w⟩ := m
        rw [List.forall_mem_cons] at hmembers
        have hquote : step 0x22 ⟨.firstKey, .object [] :: stack⟩ =
            .ok ⟨.string true .start, .object [] :: stack⟩ := rfl
        have hoctets : octets (memberChars ((k, w) :: rest) ++ ['}']) =
            octets (quoted k ++ ':' :: chars w) ++ octets (memberCharsAfter rest ++ ['}']) := by
          rw [memberChars, ← octets_append]
          simp only [List.append_assoc, List.cons_append]
        rw [hoctets, List.forall_mem_cons]
        exact (yields_member k hmembers.1 hroom hquote).append
          fun s hs => yields_membersAfter hmembers.2 hroom hs
  · rw [if_neg hroom] at hopens
    refine ⟨fun hwithin => ?_, fun _ => .here hopens⟩
    omega

/-- **Every exact value is read back**, or refused for its depth. -/
theorem isReadable_of_isExact (h : v.IsExact) : IsReadable v := by
  induction h with
  | null =>
      exact isReadable_literal (b := 0x6E) rfl (by decide) rfl (fun _ => rfl) (by rw [chars]; rfl)
  | bool b =>
      cases b with
      | true =>
          exact isReadable_literal (b := 0x74) rfl (by decide) rfl (fun _ => rfl) (by rw [chars]; rfl)
      | false =>
          exact isReadable_literal (b := 0x66) rfl (by decide) rfl (fun _ => rfl) (by rw [chars]; rfl)
  | integer hleast hgreatest => exact isReadable_integer hleast hgreatest
  | string text => exact isReadable_string text
  | array _ ih => exact isReadable_array ih
  | object _ ih => exact isReadable_object ih

end State

/-- **The reader undoes the writer**, whatever the order of the members. -/
theorem parseRaw_compact {v : Json} (hexact : v.IsExact) :
    (v.depth < depthLimit → parseRaw (Utf8.encode v.compact) = .ok v) ∧
      (¬v.depth < depthLimit →
        ∃ e, parseRaw (Utf8.encode v.compact) = .error e ∧ e.fault = .tooDeep) := by
  have hyields := State.isReadable_of_isExact hexact .required [] (by decide)
  rw [List.length_nil, Nat.zero_add] at hyields
  rw [parseRaw, encode_compact]
  refine ⟨fun hdepth => ?_, fun hdeep => (hyields.2 hdeep).run 1 0⟩
  obtain ⟨s, hreads, hs⟩ := hyields.1 hdepth
  exact hreads.run hs.finish 1 0

/-! ## Members in order -/

/-- Whether the members of every object stand in ascending order of their keys. -/
inductive IsOrdered : Json → Prop
  | null : IsOrdered .null
  | bool (b : Bool) : IsOrdered (.bool b)
  | number (n : Number) : IsOrdered (.number n)
  | string (s : String) : IsOrdered (.string s)
  | array {items : List Json} (ordered_items : ∀ v ∈ items, IsOrdered v) : IsOrdered (.array items)
  | object {members : List (String × Json)} (ascending : members.Pairwise fun m m' => m.1 < m'.1)
      (ordered_members : ∀ m ∈ members, IsOrdered m.2) : IsOrdered (.object members)

/-- A key above all others is inserted at the end. -/
theorem insertMember_of_greatest {members : List (String × Json)} {key : String} (v : Json)
    (h : ∀ m ∈ members, m.1 < key) : insertMember key v members = members ++ [(key, v)] := by
  induction members with
  | nil => rfl
  | cons m rest ih =>
      obtain ⟨k, w⟩ := m
      rw [List.forall_mem_cons] at h
      obtain ⟨hlt, hrest⟩ := h
      have hne : key ≠ k := by
        rintro rfl
        exact String.lt_irrefl key hlt
      rw [insertMember, if_neg (String.lt_asymm hlt), if_neg hne, ih hrest, List.cons_append]

/-- Members that are in order stay as they are. -/
theorem sortMembers_of_ascending {members : List (String × Json)}
    (h : members.Pairwise fun m m' => m.1 < m'.1) : sortMembers members = members := by
  induction members using List.reverseRecOn with
  | nil => rfl
  | append_singleton members m ih =>
      rw [List.pairwise_append] at h
      obtain ⟨hearlier, _, hlast⟩ := h
      have hgreatest : ∀ m' ∈ members, m'.1 < m.1 := fun m' hm' =>
        hlast m' hm' m (List.mem_singleton_self m)
      rw [sortMembers, List.foldl_append, ← sortMembers, ih hearlier, List.foldl_cons,
        List.foldl_nil]
      exact insertMember_of_greatest m.2 hgreatest

/-- A value whose members are in order is in canonical form. -/
theorem canonical_of_isOrdered {v : Json} (h : v.IsOrdered) : v.canonical = v := by
  induction h with
  | null | bool b | number n | string s => rfl
  | @array items _ ih =>
      have hitems : items.map canonical = items :=
        (List.map_congr_left ih).trans (List.map_id' items)
      rw [canonical, canonicalItems_eq_map, hitems]
  | @object members hascending _ ih =>
      have hmembers : members.map (fun m => (m.1, m.2.canonical)) = members := by
        refine (List.map_congr_left fun m hm => ?_).trans (List.map_id members)
        rw [ih m hm]
        rfl
      rw [canonical, canonicalMembers_eq_map, hmembers, sortMembers_of_ascending hascending]

end RegistryGraph.Json
