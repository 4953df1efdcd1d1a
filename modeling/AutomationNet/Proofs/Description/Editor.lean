import AutomationNet.Proofs.Description.RoundTrip

/-!
# What becomes of what the editor added

A record of a description may have members that are no fields of it. Places, transitions, arcs and
the net itself keep them, so they are written again where they were read. Inputs and the simulation
settings have no place for them, and they are lost.

* `Site`, `Site.tree?`, `Site.written?` : the records of a description, in the tree of its text and
  in the value it is written as
* `Site.keeps` : the records that keep what is no field of theirs
* `Json.member?_kept`, `Json.member?_known` : one record that keeps its other members, and one that
  has nothing but its fields
* `NetDescription.parse_extra` : **what the editor added to a record is written again with its value
  if the record keeps it, and is never written if it does not**
-/

namespace AutomationNet

open Json (Scan Fault AreFields Kept memberNamed?)

/-- The lists of records in a description. -/
inductive ElementList where
  | places
  | transitions
  | arcs
  | inputs
  deriving DecidableEq

/-- A record of a description; those in lists go by their position. -/
inductive Site where
  | net
  | element (list : ElementList) (i : Nat)
  | simulation
  deriving DecidableEq

/-- The value of the last member of an object with a key. -/
def Json.Scan.member? (key : String) : Scan → Option Scan
  | .object members _ => memberNamed? key members
  | _ => none

def Json.itemsOf : Json → List Json
  | .array items => items
  | _ => []

namespace ElementList

def key : ElementList → String
  | places => "places"
  | transitions => "transitions"
  | arcs => "arcs"
  | inputs => "inputs"

def fields : ElementList → List String
  | places => PlaceDescription.fields.map Prod.fst
  | transitions => TransitionDescription.fields.map Prod.fst
  | arcs => ArcDescription.fields.map Prod.fst
  | inputs => InputDescription.fields.map Prod.fst

end ElementList

namespace Site

def tree? (scan : Scan) : Site → Option Scan
  | net => some scan
  | element list i => ((scan.member? list.key).elim [] Scan.items)[i]?
  | simulation => scan.member? "simConfig"

def written? (value : Json) : Site → Option Json
  | net => some value
  | element list i => ((value.member? list.key).elim [] Json.itemsOf)[i]?
  | simulation => value.member? "simConfig"

def fields : Site → List String
  | net => NetDescription.fields.map Prod.fst
  | element list _ => list.fields
  | simulation => SimulationConfig.fields.map Prod.fst

/-- Whether a record keeps what is no field of it. -/
def keeps : Site → Bool
  | net => true
  | element list _ => list ≠ .inputs
  | simulation => false

end Site

/-! ## One record -/

namespace Json

section

variable {fields : List (String × (Scan → Except Fault Unit))} {known extra : Members}
  {key : String}

theorem lookup_eq_none (hkey : key ∉ fields.map Prod.fst) : fields.lookup key = none := by
  refine List.lookup_eq_none_iff.mpr fun field hfield => ?_
  refine bne_iff_ne.mpr ?_
  rintro rfl
  exact hkey (List.mem_map_of_mem hfield)

/-- The fields of a written record do not hide what is no field of it. -/
theorem member?_written (hknown : AreFields fields known) (hkey : fields.lookup key = none) :
    (Json.object (known ++ extra)).member? key = extra.lookup key := by
  have hlookup : known.lookup key = none := by
    refine List.lookup_eq_none_iff.mpr fun field hfield => ?_
    obtain ⟨check, hcheck, -⟩ := hknown.takes field hfield
    refine bne_iff_ne.mpr ?_
    rintro rfl
    rw [hkey] at hcheck
    cases hcheck
  rw [member?, List.lookup_append, hlookup, Option.none_or]

/-- A record that keeps its other members is written with what was read. -/
theorem member?_kept {depth : Nat} (hdepth : depth ≤ depthLimit) {scan : Scan}
    (hread : ∃ record, scan.asRecord fields (.kept depth) = .ok record ∧ record.extra = extra)
    (hknown : AreFields fields known) (hkey : key ∉ fields.map Prod.fst) :
    (scan.member? key).map (Scan.asValue depthLimit) =
      ((Json.object (known ++ extra)).member? key).map .ok := by
  obtain ⟨record, hrecord, rfl⟩ := hread
  obtain ⟨members, rfl, hholds⟩ := asRecord_holds hrecord
  have hextra := hholds.extra key (lookup_eq_none hkey)
  rw [member?_written hknown (lookup_eq_none hkey), ← hextra]
  rw [Scan.member?]
  cases hmember : memberNamed? key members with
  | none => rfl
  | some tree =>
    rw [hmember] at hextra
    obtain ⟨value, -, hvalue⟩ := Option.map_eq_some_iff.mp hextra.symm
    rw [Option.map_some, Option.map_some, ← hvalue, asValue_mono hdepth hvalue.symm]

/-- A record that has nothing but its fields is written without anything else. -/
theorem member?_known (hknown : AreFields fields known) (hkey : key ∉ fields.map Prod.fst) :
    (Json.object known).member? key = none := by
  have hwritten : (Json.object (known ++ [])).member? key = List.lookup key [] :=
    member?_written hknown (lookup_eq_none hkey)
  rwa [List.append_nil, List.lookup_nil] at hwritten

end

end Json

/-! ## Records in a list -/

section

variable {α : Type} {fields : List (String × (Scan → Except Fault Unit))} {key : String}
  {values : List α} {write : α → Json} {known extra : α → Json.Members}

theorem element_kept {read : Scan → Except Fault α} {items : List Scan}
    (hitems : List.Forall₂ (fun item value => read item = .ok value) items values)
    (hread : ∀ {scan a}, read scan = .ok a →
      ∃ record, scan.asRecord fields (.kept elementDepth) = .ok record ∧ record.extra = extra a)
    (hwrite : ∀ a, write a = .object (known a ++ extra a))
    (hknown : ∀ a, AreFields fields (known a)) (hkey : key ∉ fields.map Prod.fst) (i : Nat) :
    (items[i]?.bind (Scan.member? key)).map (Scan.asValue Json.depthLimit) =
      ((values.map write)[i]?.bind (Json.member? key)).map .ok := by
  rw [List.getElem?_map]
  induction hitems generalizing i with
  | nil => rfl
  | @cons item value items values hitem _ ih =>
    cases i with
    | zero =>
      rw [List.getElem?_cons_zero, List.getElem?_cons_zero, Option.map_some, Option.bind_some,
        Option.bind_some, hwrite]
      exact Json.member?_kept (by decide) (hread hitem) (hknown value) hkey
    | succ i => exact ih i

theorem element_lost (hwrite : ∀ a, write a = .object (known a))
    (hknown : ∀ a, AreFields fields (known a)) (hkey : key ∉ fields.map Prod.fst) (i : Nat) :
    (values.map write)[i]?.bind (Json.member? key) = none := by
  rw [List.getElem?_map]
  cases values[i]? with
  | none => rfl
  | some value =>
    rw [Option.map_some, Option.bind_some, hwrite]
    exact Json.member?_known (hknown value) hkey

end

namespace NetDescription

variable {net : NetDescription}

/-- **What the editor added is written again if the record keeps it, and else never.** -/
theorem parse_extra {text : String} (h : parse text = .ok net) (site : Site) {key : String}
    (hkey : key ∉ site.fields) :
    (site.keeps = true →
      ((site.tree? (Json.scan text.toList).1).bind (Scan.member? key)).map
          (Scan.asValue Json.depthLimit) =
        ((site.written? net.toJson).bind (Json.member? key)).map .ok) ∧
      (site.keeps = false → (site.written? net.toJson).bind (Json.member? key) = none) := by
  have hread := (Json.readText_eq_ok.mp h).1
  have hcanonical := ofScan_canonical (Json.scan_fits text.toList) hread
  generalize (Json.scan text.toList).1 = scan at hread ⊢
  obtain ⟨record, hrecord, hextra, hplaces, htransitions, harcs, -, -⟩ := ofScan_record hread
  obtain ⟨members, rfl, hholds⟩ := Json.asRecord_holds hrecord
  refine ⟨fun hkeeps => ?_, fun hkeeps => ?_⟩
  · match site with
    | .net =>
      exact Json.member?_kept (by decide) ⟨record, hrecord, hextra⟩ hcanonical.areFields hkey
    | .element .places i =>
      exact element_kept (hholds.list rfl hplaces) PlaceDescription.ofScan_record
        PlaceDescription.toJson_eq PlaceDescription.areFields hkey i
    | .element .transitions i =>
      exact element_kept (hholds.list rfl htransitions) TransitionDescription.ofScan_record
        TransitionDescription.toJson_eq TransitionDescription.areFields hkey i
    | .element .arcs i =>
      exact element_kept (hholds.list rfl harcs) ArcDescription.ofScan_record
        ArcDescription.toJson_eq ArcDescription.areFields hkey i
    | .element .inputs _ | .simulation => cases hkeeps
  · match site with
    | .element .inputs i =>
      exact element_lost (fun _ => rfl) InputDescription.areFields hkey i
    | .simulation => exact Json.member?_known net.simulation.areFields hkey
    | .net | .element .places _ | .element .transitions _ | .element .arcs _ => cases hkeeps

def gaugeText : String :=
  "\x7b\"zoom\":2,\"inputs\":[\x7b\"name\":\"level\",\"type\":\"INT\",\"unit\":\"mm\"\x7d]\x7d"

def gauge : NetDescription where
  inputs := [⟨"level", .int, "", ""⟩]
  extra := [("zoom", .number (.whole 2))]

/-- The unit of the input is read, and it is not written. -/
theorem gauge_unit_lost : ∃ net, parse gaugeText = .ok net ∧
    "unit" ∉ (Site.element .inputs 0).fields ∧
    (((Site.element .inputs 0).tree? (Json.scan gaugeText.toList).1).bind (Scan.member? "unit")).map
        (Scan.asValue Json.depthLimit) = some (.ok (.string "mm")) ∧
      ((Site.element .inputs 0).written? net.toJson).bind (Json.member? "unit") = none :=
  ⟨gauge, by decide +kernel, by decide, by decide +kernel, by decide +kernel⟩

theorem gauge_parse_extra : parse gaugeText = .ok gauge ∧
    ((Site.net.tree? (Json.scan gaugeText.toList).1).bind (Scan.member? "zoom")).map
        (Scan.asValue Json.depthLimit) =
      ((Site.net.written? gauge.toJson).bind (Json.member? "zoom")).map .ok ∧
    ((Site.element .inputs 0).written? gauge.toJson).bind (Json.member? "unit") = none := by
  have hparse : parse gaugeText = .ok gauge := by decide +kernel
  have hzoom : "zoom" ∉ Site.net.fields := by decide
  have hunit : "unit" ∉ (Site.element .inputs 0).fields := by decide
  exact ⟨hparse, (parse_extra hparse .net hzoom).1 rfl, (parse_extra hparse _ hunit).2 rfl⟩

end NetDescription

end AutomationNet
