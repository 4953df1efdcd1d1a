import AutomationNet.Description.Json
import AutomationNet.Proofs.Json.Record

/-!
# Descriptions read back

A description that has been read is written as a text from which it is read again, as it was. Reading
and writing agree, record by record, on which members are fields.

* `PlaceDescription.ofScan_record` and its siblings : the record that a description was read from
* `PlaceDescription.ofScan_toJson` and its siblings : a description is read from its own tree
* `NetDescription.Canonical` : the descriptions that can have been read
* `NetDescription.ofScan_canonical`, `NetDescription.Canonical.ofScan_toJson` : **descriptions are
  canonical once they have been read, and canonical descriptions are read from their trees**
* `NetDescription.ExtrasApart` : what the editor added has no key that is a field
* `NetDescription.parse_render` : **a description is read again from the text it is written as**
-/

namespace AutomationNet

open Json (Scan Fault Kept AreFields required_eq optional_eq optional_text)

/-! ## Names -/

theorem DataType.asName_ofValue (type : DataType) :
    Scan.asName table (.ofValue (.string type.name)) = .ok type := by
  cases type <;> rfl

theorem ArcKind.asName_ofValue (kind : ArcKind) :
    Scan.asName table (.ofValue (.string kind.name)) = .ok kind := by
  cases kind <;> rfl

theorem FiringMode.asName_ofValue (mode : FiringMode) :
    Scan.asName table (.ofValue (.string mode.name)) = .ok mode := by
  cases mode <;> rfl

theorem PriorityMode.asName_ofValue (mode : PriorityMode) :
    Scan.asName table (.ofValue (.string mode.name)) = .ok mode := by
  cases mode <;> rfl

theorem check_asString (s : String) :
    Scan.check Scan.asString (.ofValue (.string s)) = .ok () := rfl

theorem check_asBool (b : Bool) : Scan.check Scan.asBool (.ofValue (.bool b)) = .ok () := rfl

/-! ## Places -/

theorem PlaceDescription.ofScan_record {scan : Scan} {p : PlaceDescription}
    (h : ofScan scan = .ok p) :
    ∃ record, scan.asRecord fields (.kept elementDepth) = .ok record ∧ record.extra = p.extra := by
  unfold ofScan at h
  obtain ⟨record, hrecord, h⟩ := bind_eq_ok.mp h
  obtain ⟨id, -, h⟩ := bind_eq_ok.mp h
  obtain ⟨name, -, h⟩ := bind_eq_ok.mp h
  obtain ⟨type, -, h⟩ := bind_eq_ok.mp h
  obtain ⟨mark, -, h⟩ := bind_eq_ok.mp h
  cases h
  exact ⟨record, hrecord, rfl⟩

def PlaceDescription.known (p : PlaceDescription) : Json.Members :=
  [("id", .string p.id), ("name", .string p.name), ("placeType", .string p.type.name),
    ("initialMark", .string p.initialMark)]

theorem PlaceDescription.toJson_eq (p : PlaceDescription) :
    p.toJson = .object (p.known ++ p.extra) := rfl

theorem PlaceDescription.areFields (p : PlaceDescription) : AreFields fields p.known := by
  refine ⟨?_, by simp [known]⟩
  simp [known, fields, List.lookup_cons, check_asString, Json.check_eq_ok p.type.asName_ofValue]

theorem PlaceDescription.ofScan_toJson {p : PlaceDescription}
    (h : Kept fields elementDepth p.extra) : ofScan (.ofValue p.toJson) = .ok p := by
  have hrecord := Json.asRecord_kept p.areFields h
  rw [ofScan, toJson_eq, hrecord, bind_ok]
  rw [required_eq rfl, required_eq rfl, required_eq rfl, required_eq rfl, DataType.asName_ofValue]
  rfl

/-! ## Transitions -/

theorem TransitionDescription.ofScan_record {scan : Scan} {t : TransitionDescription}
    (h : ofScan scan = .ok t) :
    ∃ record, scan.asRecord fields (.kept elementDepth) = .ok record ∧ record.extra = t.extra := by
  unfold ofScan at h
  obtain ⟨record, hrecord, h⟩ := bind_eq_ok.mp h
  obtain ⟨id, -, h⟩ := bind_eq_ok.mp h
  obtain ⟨name, -, h⟩ := bind_eq_ok.mp h
  obtain ⟨delay, -, h⟩ := bind_eq_ok.mp h
  obtain ⟨guard, -, h⟩ := bind_eq_ok.mp h
  obtain ⟨priority, -, h⟩ := bind_eq_ok.mp h
  cases h
  exact ⟨record, hrecord, rfl⟩

theorem check_asOptional (s : String) :
    Scan.check (Scan.asOptional Scan.asString) (.ofValue (.string s)) = .ok () := rfl

def TransitionDescription.known (t : TransitionDescription) : Json.Members :=
  [("id", .string t.id), ("name", .string t.name), ("delay", .string t.delay)] ++
    optionalField "guard" t.guard ++ optionalField "priority" t.priority

theorem TransitionDescription.toJson_eq (t : TransitionDescription) :
    t.toJson = .object (t.known ++ t.extra) := rfl

theorem TransitionDescription.areFields (t : TransitionDescription) : AreFields fields t.known := by
  unfold known
  cases t.guard <;> cases t.priority <;> refine ⟨?_, by simp [optionalField]⟩ <;>
    simp [fields, optionalField, List.lookup_cons, check_asString, check_asOptional]

theorem TransitionDescription.lookup_guard (t : TransitionDescription) :
    t.known.lookup "guard" = t.guard.map Json.string := by
  unfold known
  cases t.guard <;> cases t.priority <;> simp [optionalField, List.lookup_cons]

theorem TransitionDescription.lookup_priority (t : TransitionDescription) :
    t.known.lookup "priority" = t.priority.map Json.string := by
  unfold known
  cases t.guard <;> cases t.priority <;> simp [optionalField, List.lookup_cons]

theorem TransitionDescription.ofScan_toJson {t : TransitionDescription}
    (h : Kept fields elementDepth t.extra) : ofScan (.ofValue t.toJson) = .ok t := by
  have hrecord := Json.asRecord_kept t.areFields h
  rw [ofScan, toJson_eq, hrecord, bind_ok]
  rw [required_eq rfl, required_eq rfl, required_eq rfl, optional_text t.lookup_guard,
    optional_text t.lookup_priority]
  rfl

/-! ## Arcs -/

theorem ArcDescription.ofScan_record {scan : Scan} {a : ArcDescription}
    (h : ofScan scan = .ok a) :
    ∃ record, scan.asRecord fields (.kept elementDepth) = .ok record ∧ record.extra = a.extra := by
  unfold ofScan at h
  obtain ⟨record, hrecord, h⟩ := bind_eq_ok.mp h
  obtain ⟨id, -, h⟩ := bind_eq_ok.mp h
  obtain ⟨place, -, h⟩ := bind_eq_ok.mp h
  obtain ⟨transition, -, h⟩ := bind_eq_ok.mp h
  obtain ⟨kind, -, h⟩ := bind_eq_ok.mp h
  obtain ⟨weight, -, h⟩ := bind_eq_ok.mp h
  cases h
  exact ⟨record, hrecord, rfl⟩

def ArcDescription.known (a : ArcDescription) : Json.Members :=
  [("id", .string a.id), ("placeId", .string a.place), ("transId", .string a.transition),
    ("arcType", .string a.kind.name), ("weight", .string a.weight)]

theorem ArcDescription.toJson_eq (a : ArcDescription) :
    a.toJson = .object (a.known ++ a.extra) := rfl

theorem ArcDescription.areFields (a : ArcDescription) : AreFields fields a.known := by
  refine ⟨?_, by simp [known]⟩
  simp [known, fields, List.lookup_cons, check_asString, Json.check_eq_ok a.kind.asName_ofValue]

theorem ArcDescription.ofScan_toJson {a : ArcDescription}
    (h : Kept fields elementDepth a.extra) : ofScan (.ofValue a.toJson) = .ok a := by
  have hrecord := Json.asRecord_kept a.areFields h
  rw [ofScan, toJson_eq, hrecord, bind_ok]
  rw [required_eq rfl, required_eq rfl, required_eq rfl, required_eq rfl, required_eq rfl,
    ArcKind.asName_ofValue]
  rfl

/-! ## Inputs and the simulation settings -/

def InputDescription.known (i : InputDescription) : Json.Members :=
  [("name", .string i.name), ("type", .string i.type.name),
    ("initialValue", .string i.initialValue), ("description", .string i.description)]

theorem InputDescription.areFields (i : InputDescription) : AreFields fields i.known := by
  refine ⟨?_, by simp [known]⟩
  simp [known, fields, List.lookup_cons, check_asString, Json.check_eq_ok i.type.asName_ofValue]

theorem InputDescription.ofScan_toJson (i : InputDescription) :
    ofScan (.ofValue i.toJson) = .ok i := by
  have hrecord : (Scan.ofValue i.toJson).asRecordOrList fields .skipped = _ :=
    Json.asRecord_known i.areFields .skipped
  rw [ofScan, hrecord, bind_ok]
  rw [required_eq rfl, required_eq rfl, optional_eq rfl, optional_eq rfl, DataType.asName_ofValue]
  rfl

def SimulationConfig.known (c : SimulationConfig) : Json.Members :=
  [("simMode", .string c.mode.name), ("arcDebug", .bool c.arcDebug),
    ("guardDebug", .bool c.guardDebug), ("priorityMode", .string c.priorityMode.name)]

theorem SimulationConfig.areFields (c : SimulationConfig) : AreFields fields c.known := by
  refine ⟨?_, by simp [known]⟩
  simp [known, fields, List.lookup_cons, check_asBool, Json.check_eq_ok c.mode.asName_ofValue,
    Json.check_eq_ok c.priorityMode.asName_ofValue]

theorem SimulationConfig.ofScan_toJson (c : SimulationConfig) :
    ofScan (.ofValue c.toJson) = .ok c := by
  have hrecord : (Scan.ofValue c.toJson).asRecordOrList fields .skipped = _ :=
    Json.asRecord_known c.areFields .skipped
  rw [ofScan, hrecord, bind_ok]
  rw [optional_eq rfl, optional_eq rfl, optional_eq rfl, optional_eq rfl,
    FiringMode.asName_ofValue, PriorityMode.asName_ofValue]
  rfl

/-! ## Nets -/

namespace NetDescription

variable {net : NetDescription}

/-- A description that can have been read. -/
structure Canonical (net : NetDescription) : Prop where
  own : Kept fields netDepth net.extra
  places : ∀ p ∈ net.places, Kept PlaceDescription.fields elementDepth p.extra
  transitions : ∀ t ∈ net.transitions, Kept TransitionDescription.fields elementDepth t.extra
  arcs : ∀ a ∈ net.arcs, Kept ArcDescription.fields elementDepth a.extra

def known (net : NetDescription) : Json.Members :=
  [("name", .string net.name), ("preScript", .string net.preScript),
    ("places", .array (net.places.map (·.toJson))),
    ("transitions", .array (net.transitions.map (·.toJson))),
    ("arcs", .array (net.arcs.map (·.toJson))),
    ("inputs", .array (net.inputs.map (·.toJson))),
    ("simConfig", net.simulation.toJson)]

theorem inputs_ofValue (net : NetDescription) : Scan.asList InputDescription.ofScan
    (.ofValue (.array (net.inputs.map (·.toJson)))) = .ok net.inputs :=
  Json.asList_ofValue fun i _ => i.ofScan_toJson

theorem toJson_eq (net : NetDescription) : net.toJson = .object (net.known ++ net.extra) := rfl

section

variable (h : net.Canonical)
include h

theorem Canonical.places_ofValue : Scan.asList PlaceDescription.ofScan
    (.ofValue (.array (net.places.map (·.toJson)))) = .ok net.places :=
  Json.asList_ofValue fun p hp => PlaceDescription.ofScan_toJson (h.places p hp)

theorem Canonical.transitions_ofValue : Scan.asList TransitionDescription.ofScan
    (.ofValue (.array (net.transitions.map (·.toJson)))) = .ok net.transitions :=
  Json.asList_ofValue fun t ht => TransitionDescription.ofScan_toJson (h.transitions t ht)

theorem Canonical.arcs_ofValue : Scan.asList ArcDescription.ofScan
    (.ofValue (.array (net.arcs.map (·.toJson)))) = .ok net.arcs :=
  Json.asList_ofValue fun a ha => ArcDescription.ofScan_toJson (h.arcs a ha)

theorem Canonical.areFields : AreFields fields net.known := by
  refine ⟨?_, by simp [known]⟩
  simp [known, fields, List.lookup_cons, check_asString, Json.check_eq_ok h.places_ofValue,
    Json.check_eq_ok h.transitions_ofValue, Json.check_eq_ok h.arcs_ofValue,
    Json.check_eq_ok net.inputs_ofValue, Json.check_eq_ok net.simulation.ofScan_toJson]

/-- **A canonical description is read from its own tree.** -/
theorem Canonical.ofScan_toJson : ofScan (.ofValue net.toJson) = .ok net := by
  have hrecord := Json.asRecord_kept h.areFields h.own
  rw [ofScan, toJson_eq, hrecord, bind_ok]
  rw [optional_eq rfl, optional_eq rfl, optional_eq rfl, optional_eq rfl, optional_eq rfl,
    optional_eq rfl, optional_eq rfl, h.places_ofValue, h.transitions_ofValue, h.arcs_ofValue,
    net.inputs_ofValue, net.simulation.ofScan_toJson]
  rfl

end

/-- What a description was read from. -/
theorem ofScan_record {scan : Scan} (h : ofScan scan = .ok net) :
    ∃ record, scan.asRecord fields (.kept netDepth) = .ok record ∧ record.extra = net.extra ∧
      record.optional "places" [] (Scan.asList PlaceDescription.ofScan) = .ok net.places ∧
      record.optional "transitions" [] (Scan.asList TransitionDescription.ofScan) =
        .ok net.transitions ∧
      record.optional "arcs" [] (Scan.asList ArcDescription.ofScan) = .ok net.arcs ∧
      record.optional "inputs" [] (Scan.asList InputDescription.ofScan) = .ok net.inputs ∧
      record.optional "simConfig" {} SimulationConfig.ofScan = .ok net.simulation := by
  unfold ofScan at h
  obtain ⟨record, hrecord, h⟩ := bind_eq_ok.mp h
  obtain ⟨name, -, h⟩ := bind_eq_ok.mp h
  obtain ⟨preScript, -, h⟩ := bind_eq_ok.mp h
  obtain ⟨places, hplaces, h⟩ := bind_eq_ok.mp h
  obtain ⟨transitions, htransitions, h⟩ := bind_eq_ok.mp h
  obtain ⟨arcs, harcs, h⟩ := bind_eq_ok.mp h
  obtain ⟨inputs, hinputs, h⟩ := bind_eq_ok.mp h
  obtain ⟨simulation, hsimulation, h⟩ := bind_eq_ok.mp h
  cases h
  exact ⟨record, hrecord, rfl, hplaces, htransitions, harcs, hinputs, hsimulation⟩

/-- **A description is canonical once it has been read.** -/
theorem ofScan_canonical {scan : Scan} (hscan : scan.Fits) (h : ofScan scan = .ok net) :
    net.Canonical := by
  obtain ⟨record, hrecord, hextra, hplaces, htransitions, harcs, -, -⟩ := ofScan_record h
  obtain ⟨members, rfl, hholds⟩ := Json.asRecord_holds hrecord
  refine ⟨hextra ▸ hholds.kept hscan, ?_, ?_, ?_⟩
  · exact hholds.kept_list hscan rfl PlaceDescription.ofScan_record hplaces
  · exact hholds.kept_list hscan rfl TransitionDescription.ofScan_record htransitions
  · exact hholds.kept_list hscan rfl ArcDescription.ofScan_record harcs

/-! ## Numbers -/

/-- The whole numbers in a canonical description are within 64 bits. -/
theorem Canonical.numbers_fit (h : net.Canonical) : ∀ n ∈ net.toJson.numbers, n.Fits := by
  rw [toJson_eq]
  refine h.own.numbers_fit ?_
  intro n hn
  have hparts : Json.memberNumbers net.known =
      Json.itemNumbers (net.places.map (·.toJson)) ++
        (Json.itemNumbers (net.transitions.map (·.toJson)) ++
          (Json.itemNumbers (net.arcs.map (·.toJson)) ++
            Json.itemNumbers (net.inputs.map (·.toJson)))) := by
    simp [known, Json.memberNumbers, Json.numbers, SimulationConfig.toJson]
  rw [hparts] at hn
  simp only [List.mem_append] at hn
  rcases hn with hn | hn | hn | hn
  · obtain ⟨p, hp, hn⟩ := Json.mem_itemNumbers_map hn
    exact (h.places p hp).numbers_fit (by rintro n ⟨⟩) n hn
  · obtain ⟨t, ht, hn⟩ := Json.mem_itemNumbers_map hn
    have hknown : ∀ n ∈ Json.memberNumbers t.known, n.Fits := by
      unfold TransitionDescription.known
      cases t.guard <;> cases t.priority <;> rintro n ⟨⟩
    exact (h.transitions t ht).numbers_fit hknown n hn
  · obtain ⟨a, ha, hn⟩ := Json.mem_itemNumbers_map hn
    exact (h.arcs a ha).numbers_fit (by rintro n ⟨⟩) n hn
  · obtain ⟨i, -, hn⟩ := Json.mem_itemNumbers_map hn
    cases hn

/-! ## The round trip -/

/-- What the editor added has no key that is a field of its record. -/
structure ExtrasApart (net : NetDescription) : Prop where
  own : ∀ member ∈ net.extra, member.1 ∉ fields.map Prod.fst
  places : ∀ p ∈ net.places, ∀ member ∈ p.extra, member.1 ∉ PlaceDescription.fields.map Prod.fst
  transitions : ∀ t ∈ net.transitions, ∀ member ∈ t.extra,
    member.1 ∉ TransitionDescription.fields.map Prod.fst
  arcs : ∀ a ∈ net.arcs, ∀ member ∈ a.extra, member.1 ∉ ArcDescription.fields.map Prod.fst

theorem Canonical.extrasApart (h : net.Canonical) : net.ExtrasApart where
  own := h.own.apart
  places := fun p hp => (h.places p hp).apart
  transitions := fun t ht => (h.transitions t ht).apart
  arcs := fun a ha => (h.arcs a ha).apart

/-- **A description is read again from the text it is written as.** Nothing is assumed but that the
doubles the editor wrote are read as they are written. -/
theorem parse_render {text : String} (h : parse text = .ok net) :
    net.ExtrasApart ∧
      ((∀ x, .double x ∈ net.toJson.numbers → (Json.Number.double x).ReadsBack) →
        parse net.render = .ok net) := by
  have hcanonical : net.Canonical :=
    ofScan_canonical (Json.scan_fits text.toList) (Json.readText_eq_ok.mp h).1
  refine ⟨hcanonical.extrasApart, fun hdoubles => ?_⟩
  have hnumbers : ∀ n ∈ net.toJson.numbers, n.ReadsBack := by
    intro n hn
    match n with
    | .whole i => exact (hcanonical.numbers_fit _ hn).readsBack
    | .double x => exact hdoubles x hn
  refine Json.readText_eq_ok.mpr ?_
  rw [render, Json.scan_pretty hnumbers]
  refine ⟨hcanonical.ofScan_toJson, ?_⟩
  rintro _ ⟨⟩
  rfl

def sketchText : String :=
  "\x7b\"zoom\":1.5,\"places\":[\x7b\"id\":\"P\",\"name\":\"p\",\"placeType\":\"INT\"," ++
  "\"initialMark\":\"007\",\"x\":120\x7d],\"transitions\":[\x7b\"id\":\"T\",\"name\":\"t\"," ++
  "\"delay\":\"0\",\"priority\":null\x7d]\x7d"

def sketch : NetDescription where
  places := [⟨"P", "p", .int, "007", [("x", .number (.whole 120))]⟩]
  transitions := [⟨"T", "t", "0", none, none, []⟩]
  extra := [("zoom", .number (.double ⟨false, 0x3FF8000000000000⟩))]

theorem sketch_parse_render : parse sketchText = .ok sketch ∧ sketch.ExtrasApart ∧
    parse sketch.render = .ok sketch := by
  have hparse : parse sketchText = .ok sketch := by decide +kernel
  obtain ⟨hextras, hrender⟩ := parse_render hparse
  refine ⟨hparse, hextras, hrender ?_⟩
  intro x hx
  have hnumbers : sketch.toJson.numbers =
      [.whole 120, .double ⟨false, 0x3FF8000000000000⟩] := rfl
  have hzoom : x = ⟨false, 0x3FF8000000000000⟩ := by simpa [hnumbers] using hx
  rw [hzoom]
  decide +kernel

end NetDescription

end AutomationNet
