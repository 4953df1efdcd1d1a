import AutomationNet.Proofs.Json.Canonical

/-!
# Records

Reading a record parts the members of an object into its fields and the others, and writing puts
both into one object again. The two agree on which is which.

* `asList_eq_ok` : a list is read item by item
* `memberNamed?` : the last member of an object with a key
* `Scan.Record.read_cases` : all that reading one member does
* `Kept` : other members as they have been read
* `Scan.Record.Holds`, `asRecord_holds` : **what a record holds of the members it was read from**
* `asRecord_known`, `asRecord_kept` : **fields and other members that are written side by side are
  read apart**
-/

namespace AutomationNet.Json

theorem asList_eq_ok {α : Type} {read : Scan → Except Fault α} {scan : Scan} {values : List α} :
    scan.asList read = .ok values ↔ ∃ items, scan = .array items none ∧
      List.Forall₂ (fun item value => read item = .ok value) items values := by
  constructor
  · intro h
    unfold Scan.asList at h
    split at h
    · rename_i items ending
      obtain ⟨read, hread, h⟩ := bind_eq_ok.mp h
      obtain ⟨done, hending, h⟩ := bind_eq_ok.mp h
      cases h
      cases ending with
      | none => exact ⟨items, rfl, mapM_eq_ok.mp hread⟩
      | some fault => cases hending
    · cases h
  · rintro ⟨items, rfl, hitems⟩
    rw [Scan.asList, mapM_eq_ok.mpr hitems]
    rfl

/-! ## Members -/

def Scan.isKey (key : String) : Scan → Bool
  | .string (some k) => k = key
  | _ => false

/-- The value of the last member with a key. -/
def memberNamed? (key : String) (members : List (Scan × Scan)) : Option Scan :=
  (members.reverse.find? fun member => member.1.isKey key).map Prod.snd

theorem memberNamed?_append (key : String) (members : List (Scan × Scan)) (name : String)
    (value : Scan) :
    memberNamed? key (members ++ [(.string (some name), value)]) =
      if name = key then some value else memberNamed? key members := by
  unfold memberNamed?
  rw [List.reverse_append, List.reverse_singleton, List.singleton_append, List.find?_cons]
  by_cases h : name = key
  · simp [Scan.isKey, h]
  · simp [Scan.isKey, h]

theorem memberNamed?_fits {key : String} {members : List (Scan × Scan)} {value : Scan}
    (hmembers : MembersFit members) (h : memberNamed? key members = some value) : value.Fits := by
  obtain ⟨member, hfind, rfl⟩ := Option.map_eq_some_iff.mp h
  exact membersFit_iff.mp hmembers member (List.mem_reverse.mp (List.mem_of_find?_eq_some hfind))

theorem asString_eq_ok {scan : Scan} {s : String} :
    scan.asString = .ok s ↔ scan = .string (some s) := by
  unfold Scan.asString
  split <;> simp_all

/-! ## Reading -/

section

variable {fields : List (String × (Scan → Except Fault Unit))} {depth : Nat}

theorem Scan.Record.read_cases {record record' : Scan.Record} {member : Scan × Scan}
    (h : record.read fields (.kept depth) member = .ok record') :
    ∃ key, member.1 = .string (some key) ∧
      ((∃ check, fields.lookup key = some check ∧ record.known.lookup key = none ∧
          record' = { record with known := record.known ++ [(key, member.2)] }) ∨
        fields.lookup key = none ∧ ∃ value, member.2.asValue depth = .ok value ∧
          record' = { record with extra := insert key value record.extra }) := by
  unfold Scan.Record.read at h
  obtain ⟨key, hkey, h⟩ := bind_eq_ok.mp h
  refine ⟨key, asString_eq_ok.mp hkey, ?_⟩
  cases hfield : fields.lookup key with
  | some check =>
    rw [hfield] at h
    dsimp only at h
    split at h
    · cases h
    · rename_i hnew
      obtain ⟨-, -, h⟩ := bind_eq_ok.mp h
      cases h
      exact .inl ⟨check, rfl, Option.not_isSome_iff_eq_none.mp hnew, rfl⟩
  | none =>
    rw [hfield] at h
    obtain ⟨value, hvalue, h⟩ := bind_eq_ok.mp h
    cases h
    exact .inr ⟨rfl, value, hvalue, rfl⟩

/-- Other members as they have been read: in order, none of them a field, and canonical. -/
structure Kept (fields : List (String × (Scan → Except Fault Unit))) (depth : Nat)
    (extra : Members) : Prop where
  sorted : SortedKeys extra
  unknown : ∀ member ∈ extra, fields.lookup member.1 = none
  canonical : ∀ member ∈ extra, Canonical depth member.2

theorem Kept.nil : Kept fields depth [] := ⟨List.Pairwise.nil, by simp, by simp⟩

theorem Kept.insert {extra : Members} (h : Kept fields depth extra) {key : String} {value : Json}
    (hkey : fields.lookup key = none) (hvalue : Canonical depth value) :
    Kept fields depth (insert key value extra) where
  sorted := insert_sortedKeys key value h.sorted
  unknown := by
    intro member hmember
    rcases mem_insert hmember with rfl | hmember
    · exact hkey
    · exact h.unknown member hmember
  canonical := by
    intro member hmember
    rcases mem_insert hmember with rfl | hmember
    · exact hvalue
    · exact h.canonical member hmember

theorem Kept.numbers_fit {extra : Members} (h : Kept fields depth extra) {known : Members}
    (hknown : ∀ n ∈ memberNumbers known, n.Fits) :
    ∀ n ∈ (Json.object (known ++ extra)).numbers, n.Fits := by
  intro n hn
  rw [numbers, memberNumbers_append] at hn
  rcases List.mem_append.mp hn with hn | hn
  · exact hknown n hn
  · exact canonicalMembers_numbers_fit (canonicalMembers_iff.mpr h.canonical) n hn

theorem Kept.apart {extra : Members} (h : Kept fields depth extra) :
    ∀ member ∈ extra, member.1 ∉ fields.map Prod.fst := by
  intro member hmember hfield
  obtain ⟨field, hmem, heq⟩ := List.mem_map.mp hfield
  have hne := List.lookup_eq_none_iff.mp (h.unknown member hmember) field hmem
  rw [heq] at hne
  simp at hne

/-- What a record holds of the members read so far. -/
structure Scan.Record.Holds (fields : List (String × (Scan → Except Fault Unit))) (depth : Nat)
    (members : List (Scan × Scan)) (record : Scan.Record) : Prop where
  known : ∀ key check, fields.lookup key = some check →
    record.known.lookup key = memberNamed? key members
  kept : MembersFit members → Kept fields depth record.extra
  /-- They have the values that the members give to their keys, the last of several winning. -/
  extra : ∀ key, fields.lookup key = none →
    (memberNamed? key members).map (Scan.asValue depth) = (record.extra.lookup key).map .ok

theorem Scan.Record.Holds.nil : Scan.Record.Holds fields depth [] {} where
  known := fun _ _ _ => rfl
  kept := fun _ => .nil
  extra := fun _ _ => rfl

theorem Scan.Record.Holds.read {members : List (Scan × Scan)} {record record' : Scan.Record}
    {member : Scan × Scan} (h : Scan.Record.Holds fields depth members record)
    (hread : record.read fields (.kept depth) member = .ok record') :
    Scan.Record.Holds fields depth (members ++ [member]) record' := by
  obtain ⟨name, value⟩ := member
  obtain ⟨key, rfl, ⟨check, hfield, hnew, rfl⟩ | ⟨hfield, value', hvalue, rfl⟩⟩ :=
    Scan.Record.read_cases hread
  · refine ⟨?_, ?_, ?_⟩
    · intro other _ hother
      rw [memberNamed?_append, List.lookup_append]
      by_cases heq : key = other
      · subst heq
        rw [if_pos rfl, hnew, Option.none_or, List.lookup_cons_self]
      · rw [if_neg heq, h.known other _ hother, List.lookup_cons,
          beq_eq_false_iff_ne.mpr (Ne.symm heq), List.lookup_nil, Option.or_none]
    · intro hfits
      exact h.kept (membersFit_iff.mpr fun m hm =>
        membersFit_iff.mp hfits m (List.mem_append_left _ hm))
    · intro other hother
      have hne : key ≠ other := by
        rintro rfl
        rw [hfield] at hother
        cases hother
      rw [memberNamed?_append, if_neg hne]
      exact h.extra other hother
  · refine ⟨?_, ?_, ?_⟩
    · intro other _ hother
      have hne : key ≠ other := by
        rintro rfl
        rw [hfield] at hother
        cases hother
      rw [memberNamed?_append, if_neg hne]
      exact h.known other _ hother
    · intro hfits
      have hmembers := membersFit_iff.mp hfits
      have hbefore := h.kept (membersFit_iff.mpr fun m hm => hmembers m (List.mem_append_left _ hm))
      have hfit : value.Fits := hmembers _ (List.mem_append_right _ (List.mem_singleton_self _))
      exact hbefore.insert hfield (asValue_canonical hfit hvalue)
    · intro other hother
      rw [memberNamed?_append, lookup_insert]
      by_cases heq : key = other
      · rw [if_pos heq, if_pos heq.symm, Option.map_some, Option.map_some, hvalue]
      · rw [if_neg heq, if_neg (Ne.symm heq)]
        exact h.extra other hother

/-- **What a record holds of the members it was read from.** -/
theorem asRecord_holds {scan : Scan} {record : Scan.Record}
    (h : scan.asRecord fields (.kept depth) = .ok record) :
    ∃ members, scan = .object members none ∧ Scan.Record.Holds fields depth members record := by
  unfold Scan.asRecord at h
  split at h
  · rename_i members ending
    obtain ⟨read, hread, h⟩ := bind_eq_ok.mp h
    obtain ⟨done, hending, h⟩ := bind_eq_ok.mp h
    cases h
    cases ending with
    | some fault => cases hending
    | none =>
      refine ⟨members, rfl, ?_⟩
      rcases foldlM_cases (Scan.Record.Holds fields depth) (fun _ _ _ _ hP hf => hP.read hf)
        Scan.Record.Holds.nil members with ⟨record', hok, hholds⟩ | ⟨fault, herror, -⟩
      · rw [hread] at hok
        cases hok
        exact hholds
      · rw [hread] at herror
        cases herror
  · cases h

def Scan.items : Scan → List Scan
  | .array items _ => items
  | _ => []

theorem Scan.Record.Holds.list {members : List (Scan × Scan)} {record : Scan.Record}
    (h : Scan.Record.Holds fields depth members record) {key : String}
    {check : Scan → Except Fault Unit} (hkey : fields.lookup key = some check) {α : Type}
    {read : Scan → Except Fault α} {values : List α}
    (hvalues : record.optional key [] (Scan.asList read) = .ok values) :
    List.Forall₂ (fun item value => read item = .ok value)
      ((memberNamed? key members).elim [] Scan.items) values := by
  rw [Scan.Record.optional, h.known key check hkey] at hvalues
  cases hmember : memberNamed? key members with
  | none =>
    rw [hmember] at hvalues
    cases hvalues
    exact .nil
  | some scan =>
    rw [hmember] at hvalues
    obtain ⟨items, rfl, hitems⟩ := asList_eq_ok.mp hvalues
    exact hitems

theorem memberItems_fit {members : List (Scan × Scan)} (hmembers : MembersFit members)
    (key : String) : ∀ item ∈ (memberNamed? key members).elim [] Scan.items, item.Fits := by
  intro item hitem
  cases hmember : memberNamed? key members with
  | none =>
    rw [hmember] at hitem
    cases hitem
  | some scan =>
    have hscan := memberNamed?_fits hmembers hmember
    rw [hmember] at hitem
    match scan with
    | .array items _ => exact itemsFit_iff.mp hscan item hitem
    | .null | .bool _ | .number _ | .string _ | .object _ _ | .missing | .brokenString _ _
    | .broken _ _ => cases hitem

/-- What records in a list keep beside their fields. -/
theorem Scan.Record.Holds.kept_list {members : List (Scan × Scan)} {record : Scan.Record}
    (h : Scan.Record.Holds fields depth members record) (hmembers : MembersFit members)
    {key : String} {check : Scan → Except Fault Unit} (hkey : fields.lookup key = some check)
    {α : Type} {read : Scan → Except Fault α} {extra : α → Members} {inner : Nat}
    {itemFields : List (String × (Scan → Except Fault Unit))}
    (hread : ∀ {scan a}, read scan = .ok a →
      ∃ record, scan.asRecord itemFields (.kept inner) = .ok record ∧ record.extra = extra a)
    {values : List α} (hvalues : record.optional key [] (Scan.asList read) = .ok values) :
    ∀ a ∈ values, Kept itemFields inner (extra a) := by
  intro a ha
  obtain ⟨item, hitem, hok⟩ := exists_of_forall₂ (h.list hkey hvalues) ha
  obtain ⟨itemRecord, hrecord, hextra⟩ := hread hok
  obtain ⟨itemMembers, rfl, hholds⟩ := asRecord_holds hrecord
  rw [← hextra]
  exact hholds.kept (memberItems_fit hmembers key _ hitem)

end

/-! ## Writing -/

theorem ofMembers_append (a b : Members) :
    Scan.ofMembers (a ++ b) = Scan.ofMembers a ++ Scan.ofMembers b := by
  induction a with
  | nil => rfl
  | cons member a ih =>
    obtain ⟨key, value⟩ := member
    rw [List.cons_append, Scan.ofMembers, Scan.ofMembers, ih, List.cons_append]

theorem ofItems_eq_map (items : List Json) : Scan.ofItems items = items.map Scan.ofValue := by
  induction items with
  | nil => rfl
  | cons item rest ih => rw [Scan.ofItems, ih, List.map_cons]

def fieldTrees (known : Members) : List (String × Scan) :=
  known.map fun field => (field.1, .ofValue field.2)

/-- Each of the members is a field, once, and has a value that its field takes. -/
structure AreFields (fields : List (String × (Scan → Except Fault Unit))) (known : Members) :
    Prop where
  takes : ∀ field ∈ known, ∃ check, fields.lookup field.1 = some check ∧
    check (.ofValue field.2) = .ok ()
  nodup : (known.map Prod.fst).Nodup

section

variable {fields : List (String × (Scan → Except Fault Unit))} {known : Members}

theorem foldlM_known (hknown : AreFields fields known) (unknown : Scan.Unknown)
    (record : Scan.Record) (hnew : ∀ field ∈ known, record.known.lookup field.1 = none) :
    (Scan.ofMembers known).foldlM (Scan.Record.read fields unknown) record =
      .ok { record with known := record.known ++ fieldTrees known } := by
  induction known generalizing record with
  | nil =>
    rw [fieldTrees, List.map_nil, List.append_nil]
    rfl
  | cons field rest ih =>
    obtain ⟨key, value⟩ := field
    obtain ⟨hfirst, hnodup⟩ := List.nodup_cons.mp hknown.nodup
    obtain ⟨check, hfield, hcheck⟩ := hknown.takes (key, value) List.mem_cons_self
    have hrest : AreFields fields rest :=
      ⟨fun other hother => hknown.takes other (List.mem_cons_of_mem _ hother), hnodup⟩
    have hread : record.read fields unknown (.string (some key), .ofValue value) =
        .ok { record with known := record.known ++ [(key, .ofValue value)] } := by
      have hfresh : (record.known.lookup key).isSome = false := by
        rw [hnew (key, value) List.mem_cons_self]
        rfl
      rw [Scan.Record.read, Scan.asString, bind_ok, hfield]
      simp only [hfresh, hcheck]
      rfl
    rw [Scan.ofMembers, List.foldlM_cons, hread, bind_ok, ih hrest]
    · rw [List.append_assoc, List.singleton_append]
      rfl
    · intro other hother
      have hne : other.1 ≠ key := by
        rintro rfl
        exact hfirst (List.mem_map.mpr ⟨other, hother, rfl⟩)
      rw [List.lookup_append, hnew other (List.mem_cons_of_mem _ hother), Option.none_or,
        List.lookup_cons, beq_eq_false_iff_ne.mpr hne]
      rfl

theorem foldlM_extra {depth : Nat} {extra : Members} (hextra : Kept fields depth extra)
    (record : Scan.Record) :
    (Scan.ofMembers extra).foldlM (Scan.Record.read fields (.kept depth)) record =
      .ok { record with
        extra := extra.foldl (fun acc member => insert member.1 member.2 acc) record.extra } := by
  induction extra generalizing record with
  | nil => rfl
  | cons member rest ih =>
    obtain ⟨key, value⟩ := member
    have hunknown : fields.lookup key = none := hextra.unknown (key, value) List.mem_cons_self
    have hvalue : Canonical depth value := hextra.canonical (key, value) List.mem_cons_self
    have hrest : Kept fields depth rest :=
      ⟨(List.pairwise_cons.mp hextra.sorted).2,
        fun m hm => hextra.unknown m (List.mem_cons_of_mem _ hm),
        fun m hm => hextra.canonical m (List.mem_cons_of_mem _ hm)⟩
    have hread : record.read fields (.kept depth) (.string (some key), .ofValue value) =
        .ok { record with extra := insert key value record.extra } := by
      rw [Scan.Record.read, Scan.asString, bind_ok, hunknown]
      simp only [asValue_ofValue hvalue]
      rfl
    rw [Scan.ofMembers, List.foldlM_cons, hread, bind_ok, ih hrest]
    rfl

/-- **Fields alone are read as they are.** -/
theorem asRecord_known (hknown : AreFields fields known) (unknown : Scan.Unknown) :
    (Scan.ofValue (.object known)).asRecord fields unknown = .ok ⟨fieldTrees known, []⟩ := by
  rw [Scan.ofValue, Scan.asRecord, foldlM_known hknown unknown {} (fun _ _ => rfl)]
  rfl

/-- **Fields and other members that are written side by side are read apart.** -/
theorem asRecord_kept {depth : Nat} {extra : Members} (hknown : AreFields fields known)
    (hextra : Kept fields depth extra) :
    (Scan.ofValue (.object (known ++ extra))).asRecord fields (.kept depth) =
      .ok ⟨fieldTrees known, extra⟩ := by
  rw [Scan.ofValue, Scan.asRecord, ofMembers_append, List.foldlM_append,
    foldlM_known hknown _ {} (fun _ _ => rfl), bind_ok, foldlM_extra hextra, bind_ok]
  exact congrArg (fun members => Except.ok (Scan.Record.mk (fieldTrees known) members))
    (sorted_eq_self hextra.sorted)

end

/-! ## The fields of a written record -/

section

variable {α : Type} {known extra : Members} {key : String} {value : Json}

theorem lookup_fieldTrees (known : Members) (key : String) :
    (fieldTrees known).lookup key = (known.lookup key).map Scan.ofValue := by
  induction known with
  | nil => rfl
  | cons field rest ih =>
    rw [fieldTrees, List.map_cons, List.lookup_cons, List.lookup_cons]
    split
    · rfl
    · exact ih

theorem required_eq (h : known.lookup key = some value) (read : Scan → Except Fault α) :
    Scan.Record.required ⟨fieldTrees known, extra⟩ key read = read (.ofValue value) := by
  rw [Scan.Record.required, lookup_fieldTrees, h]
  rfl

theorem optional_eq (h : known.lookup key = some value) (absent : α)
    (read : Scan → Except Fault α) :
    Scan.Record.optional ⟨fieldTrees known, extra⟩ key absent read = read (.ofValue value) := by
  rw [Scan.Record.optional, lookup_fieldTrees, h]
  rfl

theorem optional_text {text : Option String} (h : known.lookup key = text.map Json.string) :
    Scan.Record.optional ⟨fieldTrees known, extra⟩ key none (Scan.asOptional Scan.asString) =
      .ok text := by
  rw [Scan.Record.optional, lookup_fieldTrees, h]
  cases text <;> rfl

theorem check_eq_ok {read : Scan → Except Fault α} {scan : Scan} {a : α} (h : read scan = .ok a) :
    Scan.check read scan = .ok () := by
  rw [Scan.check, h]
  rfl

theorem asList_ofValue {read : Scan → Except Fault α} {write : α → Json} {values : List α}
    (h : ∀ a ∈ values, read (.ofValue (write a)) = .ok a) :
    Scan.asList read (.ofValue (.array (values.map write))) = .ok values := by
  refine asList_eq_ok.mpr ⟨Scan.ofItems (values.map write), rfl, ?_⟩
  rw [ofItems_eq_map, List.map_map, List.forall₂_map_left_iff, List.forall₂_same]
  exact h

end

end AutomationNet.Json
