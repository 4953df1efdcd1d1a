import AutomationNet.Proofs.Json.Layout

/-!
# Values that have been read

A value that was read from a text has the members of its objects sorted by key, is nested to a
bounded depth, and has its whole numbers within 64 bits. These values are what they are read as from
their own tree.

* `SortedKeys` : the keys of members, each once and in order
* `insert_sortedKeys`, `lookup_insert`, `sorted_eq_self` : how members are sorted
* `Json.Canonical` : the values that can have been read
* `Scan.Fits`, `scan_fits` : the numbers of a tree, and that they are within their bounds
* `asValue_canonical`, `asValue_ofValue` : **values are canonical once they have been read, and
  canonical values are read from their trees**
* `asValue_mono` : reading does not depend on the levels that are left, if there are enough
-/

namespace AutomationNet.Json

/-! ## Sorted members -/

/-- The keys of members, each once and in order. -/
def SortedKeys (members : Members) : Prop := members.Pairwise fun a b => a.1 < b.1

theorem mem_insert {key : String} {value : Json} {members : Members} {member : String × Json}
    (h : member ∈ insert key value members) : member = (key, value) ∨ member ∈ members := by
  induction members with
  | nil => exact .inl (List.mem_singleton.mp h)
  | cons first rest ih =>
    obtain ⟨k, v⟩ := first
    unfold insert at h
    split at h
    · rcases List.mem_cons.mp h with rfl | h
      · exact .inl rfl
      · exact .inr (List.mem_cons_of_mem _ h)
    · split at h
      · rcases List.mem_cons.mp h with rfl | h
        · exact .inl rfl
        · exact .inr h
      · rcases List.mem_cons.mp h with rfl | h
        · exact .inr List.mem_cons_self
        · rcases ih h with rfl | h
          · exact .inl rfl
          · exact .inr (List.mem_cons_of_mem _ h)

theorem insert_sortedKeys (key : String) (value : Json) {members : Members}
    (h : SortedKeys members) : SortedKeys (insert key value members) := by
  induction members with
  | nil => exact List.pairwise_singleton _ _
  | cons first rest ih =>
    obtain ⟨k, v⟩ := first
    obtain ⟨hfirst, hrest⟩ := List.pairwise_cons.mp h
    unfold insert
    split
    · rename_i heq
      subst heq
      exact List.pairwise_cons.mpr ⟨hfirst, hrest⟩
    · rename_i hne
      split
      · rename_i hlt
        refine List.pairwise_cons.mpr ⟨?_, h⟩
        intro member hmember
        rcases List.mem_cons.mp hmember with rfl | hmember
        · exact hlt
        · exact String.lt_trans hlt (hfirst member hmember)
      · rename_i hnlt
        have hlt : k < key := Std.lt_of_le_of_ne (String.not_lt.mp hnlt) fun heq => hne heq.symm
        refine List.pairwise_cons.mpr ⟨?_, ih hrest⟩
        intro member hmember
        rcases mem_insert hmember with rfl | hmember
        · exact hlt
        · exact hfirst member hmember

/-- The member just set has its value, the others keep theirs. -/
theorem lookup_insert (key : String) (value : Json) (members : Members) (other : String) :
    (insert key value members).lookup other =
      if other = key then some value else members.lookup other := by
  have hcons : ∀ (k : String) (v : Json) (rest : Members),
      List.lookup other ((k, v) :: rest) = if other = k then some v else rest.lookup other := by
    intro k v rest
    by_cases hother : other = k
    · subst hother
      rw [List.lookup_cons_self, if_pos rfl]
    · rw [if_neg hother, List.lookup_cons, beq_eq_false_iff_ne.mpr hother]
  induction members with
  | nil => exact hcons key value []
  | cons first rest ih =>
    obtain ⟨k, v⟩ := first
    unfold insert
    split
    · rename_i heq
      rw [hcons, hcons, heq]
      split <;> rfl
    · rename_i hne
      split
      · exact hcons _ _ _
      · rw [hcons, hcons, ih]
        split
        · rename_i heq
          rw [if_neg]
          rintro rfl
          exact hne heq
        · rfl

theorem insert_eq_append (key : String) (value : Json) {members : Members}
    (h : ∀ member ∈ members, member.1 < key) :
    insert key value members = members ++ [(key, value)] := by
  induction members with
  | nil => rfl
  | cons first rest ih =>
    obtain ⟨k, v⟩ := first
    have hlt : k < key := h (k, v) List.mem_cons_self
    have hne : key ≠ k := by
      rintro rfl
      exact String.lt_irrefl _ hlt
    rw [insert, if_neg hne, if_neg (String.lt_asymm hlt),
      ih fun member hmember => h member (List.mem_cons_of_mem _ hmember), List.cons_append]

theorem foldl_insert_sortedKeys {done members : Members} (h : SortedKeys (done ++ members)) :
    members.foldl (fun acc member => insert member.1 member.2 acc) done = done ++ members := by
  induction members generalizing done with
  | nil => rw [List.foldl_nil, List.append_nil]
  | cons first rest ih =>
    have hlast : insert first.1 first.2 done = done ++ [first] := by
      refine insert_eq_append _ _ fun member hmember => ?_
      exact (List.pairwise_append.mp h).2.2 member hmember first List.mem_cons_self
    rw [List.foldl_cons, hlast, ih (by rwa [List.append_assoc]), List.append_assoc]
    rfl

theorem sorted_eq_self {members : Members} (h : SortedKeys members) : sorted members = members :=
  foldl_insert_sortedKeys h

theorem sorted_sortedKeys (members : Members) : SortedKeys (sorted members) := by
  have hstep : ∀ (done : Members), SortedKeys done →
      SortedKeys (members.foldl (fun acc member => insert member.1 member.2 acc) done) := by
    induction members with
    | nil => exact fun done hdone => hdone
    | cons member rest ih => exact fun done hdone => ih _ (insert_sortedKeys _ _ hdone)
  exact hstep [] List.Pairwise.nil

theorem mem_sorted {members : Members} {member : String × Json} (h : member ∈ sorted members) :
    member ∈ members := by
  have hstep : ∀ (done : Members),
      member ∈ members.foldl (fun acc member => insert member.1 member.2 acc) done →
      member ∈ done ∨ member ∈ members := by
    clear h
    induction members with
    | nil => exact fun done hdone => .inl hdone
    | cons first rest ih =>
      intro done hmember
      rcases ih _ hmember with hmember | hmember
      · rcases mem_insert hmember with rfl | hmember
        · exact .inr List.mem_cons_self
        · exact .inl hmember
      · exact .inr (List.mem_cons_of_mem _ hmember)
  rcases hstep [] h with h | h
  · cases h
  · exact h

/-! ## Canonical values -/

mutual

/-- A value that can have been read where less than `depth` levels of nesting are left. -/
def Canonical (depth : Nat) : Json → Prop
  | .null => True
  | .bool _ => True
  | .number n => n.Fits
  | .string _ => True
  | .array items => 2 ≤ depth ∧ CanonicalItems (depth - 1) items
  | .object members => 2 ≤ depth ∧ SortedKeys members ∧ CanonicalMembers (depth - 1) members

def CanonicalItems (depth : Nat) : List Json → Prop
  | [] => True
  | item :: rest => Canonical depth item ∧ CanonicalItems depth rest

def CanonicalMembers (depth : Nat) : Members → Prop
  | [] => True
  | (_, value) :: rest => Canonical depth value ∧ CanonicalMembers depth rest

end

theorem canonicalMembers_iff {depth : Nat} {members : Members} :
    CanonicalMembers depth members ↔ ∀ member ∈ members, Canonical depth member.2 := by
  induction members with
  | nil => simp [CanonicalMembers]
  | cons first rest ih => simp [CanonicalMembers, ih]

mutual

theorem Canonical.numbers_fit {depth : Nat} {v : Json} (h : Canonical depth v) :
    ∀ n ∈ numbers v, n.Fits := by
  match v with
  | .null | .bool _ | .string _ =>
    intro n hn
    cases hn
  | .number n =>
    intro m hm
    rw [List.mem_singleton.mp hm]
    exact h
  | .array items => exact canonicalItems_numbers_fit h.2
  | .object members => exact canonicalMembers_numbers_fit h.2.2

theorem canonicalItems_numbers_fit {depth : Nat} {items : List Json}
    (h : CanonicalItems depth items) : ∀ n ∈ itemNumbers items, n.Fits := by
  match items with
  | [] =>
    intro n hn
    cases hn
  | item :: rest =>
    intro n hn
    rcases List.mem_append.mp hn with hn | hn
    · exact Canonical.numbers_fit h.1 n hn
    · exact canonicalItems_numbers_fit h.2 n hn

theorem canonicalMembers_numbers_fit {depth : Nat} {members : Members}
    (h : CanonicalMembers depth members) : ∀ n ∈ memberNumbers members, n.Fits := by
  match members with
  | [] =>
    intro n hn
    cases hn
  | (_, value) :: rest =>
    intro n hn
    rcases List.mem_append.mp hn with hn | hn
    · exact Canonical.numbers_fit h.1 n hn
    · exact canonicalMembers_numbers_fit h.2 n hn

end

/-! ## Trees -/

mutual

/-- The numbers of a tree are within their bounds. -/
def Scan.Fits : Scan → Prop
  | .null => True
  | .bool _ => True
  | .number value => ∀ n ∈ value, n.Fits
  | .string _ => True
  | .array items _ => ItemsFit items
  | .object members _ => MembersFit members
  | .missing => True
  | .brokenString _ _ => True
  | .broken _ _ => True

def ItemsFit : List Scan → Prop
  | [] => True
  | item :: rest => item.Fits ∧ ItemsFit rest

def MembersFit : List (Scan × Scan) → Prop
  | [] => True
  | (_, value) :: rest => value.Fits ∧ MembersFit rest

end

theorem itemsFit_iff {items : List Scan} : ItemsFit items ↔ ∀ item ∈ items, item.Fits := by
  induction items with
  | nil => simp [ItemsFit]
  | cons item rest ih => simp [ItemsFit, ih]

theorem membersFit_iff {members : List (Scan × Scan)} :
    MembersFit members ↔ ∀ member ∈ members, member.2.Fits := by
  induction members with
  | nil => simp [MembersFit]
  | cons member rest ih => simp [MembersFit, ih]

theorem scanWord_fits (word : List Char) {value : Scan} (hvalue : value.Fits) (text : List Char) :
    (scanWord word value text).1.Fits := by
  induction word generalizing text with
  | nil => exact hvalue
  | cons w word ih =>
    match text with
    | [] => exact trivial
    | c :: text =>
      rw [scanWord]
      split
      · exact ih text
      · exact trivial

theorem scanString_fits (text : List Char) : (scanString text).1.Fits := by
  unfold scanString
  split <;> exact trivial

theorem scanUnsigned_fits (negative : Bool) (text : List Char) :
    (scanUnsigned negative text).1.Fits := by
  have hnumber := scannedNumber_unsigned negative text
  generalize scanUnsigned negative text = scanned at hnumber ⊢
  cases hnumber with
  | broken wanted skipped => trivial
  | number hfits _ => exact hfits

/-- What all scanners with one budget keep to. -/
structure BudgetFits (budget : Nat) : Prop where
  value : ∀ text, (scanValue budget text).1.Fits
  items : ∀ text, ItemsFit (scanItems budget text).1
  members : ∀ text, MembersFit (scanMembers budget text).1

theorem scanValue_fits {budget : Nat} (h : BudgetFits budget) (text : List Char) :
    (scanValue (budget + 1) text).1.Fits := by
  rw [scanValue]
  split
  · exact trivial
  · exact scanWord_fits _ (by trivial) _
  · exact scanWord_fits _ (by trivial) _
  · exact scanWord_fits _ (by trivial) _
  · exact scanString_fits _
  · exact scanUnsigned_fits _ _
  · split
    · exact trivial
    · split
      · exact trivial
      · exact h.items _
  · split
    · exact trivial
    · split
      · exact trivial
      · exact h.members _
  · split
    · exact scanUnsigned_fits _ _
    · exact trivial

theorem scanItems_fits {budget : Nat} (h : BudgetFits budget) (text : List Char) :
    ItemsFit (scanItems (budget + 1) text).1 := by
  rw [scanItems]
  have hitem := h.value text
  split <;> rename_i heq <;> rw [heq] at hitem
  · exact ⟨hitem, trivial⟩
  · split
    · exact ⟨hitem, trivial⟩
    · split
      · exact ⟨hitem, trivial, trivial⟩
      · exact ⟨hitem, h.items _⟩
    · exact ⟨hitem, trivial⟩
    · exact ⟨hitem, trivial⟩

theorem scanMembers_fits {budget : Nat} (h : BudgetFits budget) (text : List Char) :
    MembersFit (scanMembers (budget + 1) text).1 := by
  rw [scanMembers.eq_def]
  dsimp only
  split
  · exact ⟨trivial, trivial⟩
  · split
    · exact ⟨trivial, trivial⟩
    · split
      · exact ⟨trivial, trivial⟩
      · rename_i rest _
        have hvalue := h.value rest
        split <;> rename_i heq <;> rw [heq] at hvalue
        · exact ⟨hvalue, trivial⟩
        · split
          · exact ⟨hvalue, trivial⟩
          · exact ⟨hvalue, h.members _⟩
          · exact ⟨hvalue, trivial⟩
          · exact ⟨hvalue, trivial⟩
      · exact ⟨trivial, trivial⟩
  · exact ⟨trivial, trivial⟩

theorem budgetFits (budget : Nat) : BudgetFits budget := by
  induction budget with
  | zero => exact ⟨fun _ => trivial, fun _ => trivial, fun _ => trivial⟩
  | succ budget ih => exact ⟨scanValue_fits ih, scanItems_fits ih, scanMembers_fits ih⟩

/-- **The numbers in the tree of a text are within their bounds.** -/
theorem scan_fits (text : List Char) : (scan text).1.Fits := (budgetFits _).value text

/-! ## Reading -/

mutual

/-- **A value is canonical once it has been read.** -/
theorem asValue_canonical {depth : Nat} {scan : Scan} {v : Json} (hscan : scan.Fits)
    (h : scan.asValue depth = .ok v) : Canonical depth v := by
  match scan with
  | .null | .bool _ | .string (some _) =>
    cases h
    trivial
  | .number (some n) =>
    cases h
    exact hscan n rfl
  | .array items ending =>
    match depth with
    | 0 | 1 => cases h
    | depth + 2 =>
      rw [Scan.asValue] at h
      obtain ⟨values, hvalues, h⟩ := bind_eq_ok.mp h
      obtain ⟨-, -, h⟩ := bind_eq_ok.mp h
      cases h
      exact ⟨by omega, asValues_canonical hscan hvalues⟩
  | .object members ending =>
    match depth with
    | 0 | 1 => cases h
    | depth + 2 =>
      rw [Scan.asValue] at h
      obtain ⟨values, hvalues, h⟩ := bind_eq_ok.mp h
      obtain ⟨-, -, h⟩ := bind_eq_ok.mp h
      cases h
      have hcanonical := canonicalMembers_iff.mp (asMembers_canonical hscan hvalues)
      refine ⟨by omega, sorted_sortedKeys values, canonicalMembers_iff.mpr ?_⟩
      exact fun member hmember => hcanonical member (mem_sorted hmember)
  | .number none | .string none | .missing | .brokenString _ _ | .broken _ _ => cases h

theorem asValues_canonical {depth : Nat} {items : List Scan} {values : List Json}
    (hitems : ItemsFit items) (h : Scan.asValues depth items = .ok values) :
    CanonicalItems depth values := by
  match items with
  | [] =>
    cases h
    trivial
  | item :: rest =>
    rw [Scan.asValues] at h
    obtain ⟨value, hvalue, h⟩ := bind_eq_ok.mp h
    obtain ⟨others, hothers, h⟩ := bind_eq_ok.mp h
    cases h
    exact ⟨asValue_canonical hitems.1 hvalue, asValues_canonical hitems.2 hothers⟩

theorem asMembers_canonical {depth : Nat} {members : List (Scan × Scan)} {values : Members}
    (hmembers : MembersFit members) (h : Scan.asMembers depth members = .ok values) :
    CanonicalMembers depth values := by
  match members with
  | [] =>
    cases h
    trivial
  | (key, item) :: rest =>
    rw [Scan.asMembers] at h
    obtain ⟨name, -, h⟩ := bind_eq_ok.mp h
    obtain ⟨value, hvalue, h⟩ := bind_eq_ok.mp h
    obtain ⟨others, hothers, h⟩ := bind_eq_ok.mp h
    cases h
    exact ⟨asValue_canonical hmembers.1 hvalue, asMembers_canonical hmembers.2 hothers⟩

end

mutual

/-- **A canonical value is read from its tree.** -/
theorem asValue_ofValue {depth : Nat} {v : Json} (h : Canonical depth v) :
    (Scan.ofValue v).asValue depth = .ok v := by
  match v with
  | .null | .bool _ | .number _ | .string _ => rfl
  | .array items =>
    match depth with
    | 0 | 1 => exact absurd h.1 (by decide)
    | depth + 2 =>
      have hitems : Scan.asValues (depth + 1) (Scan.ofItems items) = .ok items :=
        asValues_ofItems h.2
      rw [Scan.ofValue, Scan.asValue, hitems]
      rfl
  | .object members =>
    match depth with
    | 0 | 1 => exact absurd h.1 (by decide)
    | depth + 2 =>
      have hmembers : Scan.asMembers (depth + 1) (Scan.ofMembers members) = .ok members :=
        asMembers_ofMembers h.2.2
      rw [Scan.ofValue, Scan.asValue, hmembers, bind_ok, sorted_eq_self h.2.1]
      rfl

theorem asValues_ofItems {depth : Nat} {items : List Json} (h : CanonicalItems depth items) :
    Scan.asValues depth (Scan.ofItems items) = .ok items := by
  match items with
  | [] => rfl
  | item :: rest =>
    rw [Scan.ofItems, Scan.asValues, asValue_ofValue h.1, asValues_ofItems h.2]
    rfl

theorem asMembers_ofMembers {depth : Nat} {members : Members} (h : CanonicalMembers depth members) :
    Scan.asMembers depth (Scan.ofMembers members) = .ok members := by
  match members with
  | [] => rfl
  | (key, value) :: rest =>
    rw [Scan.ofMembers, Scan.asMembers, asValue_ofValue h.1, asMembers_ofMembers h.2]
    rfl

end

mutual

/-- A value that has been read is also read where more levels of nesting are left. -/
theorem asValue_mono {depth depth' : Nat} (hdepth : depth ≤ depth') {scan : Scan} {v : Json}
    (h : scan.asValue depth = .ok v) : scan.asValue depth' = .ok v := by
  match scan with
  | .null | .bool _ | .string (some _) | .number (some _) => exact h
  | .array items ending =>
    match depth, depth', hdepth with
    | 0, _, _ | 1, _, _ => cases h
    | depth + 2, depth' + 2, hdepth =>
      rw [Scan.asValue] at h ⊢
      obtain ⟨values, hvalues, h⟩ := bind_eq_ok.mp h
      rw [asValues_mono (by omega) hvalues]
      exact h
  | .object members ending =>
    match depth, depth', hdepth with
    | 0, _, _ | 1, _, _ => cases h
    | depth + 2, depth' + 2, hdepth =>
      rw [Scan.asValue] at h ⊢
      obtain ⟨values, hvalues, h⟩ := bind_eq_ok.mp h
      rw [asMembers_mono (by omega) hvalues]
      exact h
  | .number none | .string none | .missing | .brokenString _ _ | .broken _ _ => cases h

theorem asValues_mono {depth depth' : Nat} (hdepth : depth ≤ depth') {items : List Scan}
    {values : List Json} (h : Scan.asValues depth items = .ok values) :
    Scan.asValues depth' items = .ok values := by
  match items with
  | [] => exact h
  | item :: rest =>
    rw [Scan.asValues] at h ⊢
    obtain ⟨value, hvalue, h⟩ := bind_eq_ok.mp h
    obtain ⟨others, hothers, h⟩ := bind_eq_ok.mp h
    rw [asValue_mono hdepth hvalue, bind_ok, asValues_mono hdepth hothers]
    exact h

theorem asMembers_mono {depth depth' : Nat} (hdepth : depth ≤ depth')
    {members : List (Scan × Scan)} {values : Members}
    (h : Scan.asMembers depth members = .ok values) :
    Scan.asMembers depth' members = .ok values := by
  match members with
  | [] => exact h
  | (key, item) :: rest =>
    rw [Scan.asMembers] at h ⊢
    obtain ⟨name, hname, h⟩ := bind_eq_ok.mp h
    obtain ⟨value, hvalue, h⟩ := bind_eq_ok.mp h
    obtain ⟨others, hothers, h⟩ := bind_eq_ok.mp h
    rw [hname, bind_ok, asValue_mono hdepth hvalue, bind_ok, asMembers_mono hdepth hothers]
    exact h

end

end AutomationNet.Json
