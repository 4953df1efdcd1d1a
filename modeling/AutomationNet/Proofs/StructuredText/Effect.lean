import AutomationNet.Proofs.Net.Flow
import AutomationNet.Proofs.StructuredText.Condition

/-!
# Effects of arcs, as they are read

The texts of a program do to the variables of its places what a firing does to their marks, one text
for each input and output arc. A text is read by the name of its place. Variables have no bounds, so
that a count which is asked for more than it holds goes below zero, where a mark stays at zero.

* `Value` : what a variable holds
* `Assignment.read?`, `Assignment.run?` : the assignment that a text is for a given name, and what it
  does to a variable
* `Assignment.read?_text` : **an assignment that is written reads back as itself**
* `Net.values`, `Net.execute?` : the variables of a marking, and after the texts of a transition
* `Net.execute?_eq` : every variable after the texts of a transition
* `Net.execute_eq_values_iff` : **texts and firings agree exactly if no count is asked for more than
  it holds**
-/

namespace AutomationNet

namespace StructuredText

/-- What a variable holds. A count has no bounds. -/
inductive Value where
  | count (number : Int)
  | flag (set : Bool)
  deriving DecidableEq, Repr

namespace Value

def type : Value → DataType
  | .count _ => .int
  | .flag _ => .bool

def ofMark : DataType → (mark : Nat) → Value
  | .int, mark => .count mark
  | .bool, mark => .flag (mark != 0)

@[simp] theorem type_ofMark (type : DataType) (mark : Nat) : (ofMark type mark).type = type := by
  cases type <;> rfl

end Value

namespace Assignment

/-! ## Reading a text -/

def name : Assignment → String
  | .add name _ => name
  | .subtract name _ => name
  | .set name => name
  | .clear name => name

/-- What an assignment makes of its variable, if it is of the right type. -/
def run? : Assignment → Value → Option Value
  | .add _ amount, .count number => some (.count (number + amount))
  | .subtract _ amount, .count number => some (.count (number - amount))
  | .set _, .flag _ => some (.flag true)
  | .clear _, .flag _ => some (.flag false)
  | _, _ => none

/-- The numeral between a given beginning and the semicolon at the end. -/
def amount? (beginning text : String) : Option Nat :=
  (Reader.literal beginning.toList text.toList).bind fun (_, rest) =>
    if rest.getLast? = some ';' then Numeral.nat? rest.dropLast else none

/-- The assignment that a text is, if it is one to the variable of a name. -/
def read? (name text : String) : Option Assignment :=
  if text = name ++ " := TRUE;" then some (.set name)
  else if text = name ++ " := FALSE;" then some (.clear name)
  else match amount? (name ++ " := " ++ name ++ " + ") text with
    | some amount => some (.add name amount)
    | none => (amount? (name ++ " := " ++ name ++ " - ") text).map (.subtract name)

theorem amount?_append (beginning : String) (n : Nat) :
    amount? beginning (beginning ++ Numeral.ofNat n ++ ";") = some n := by
  rw [amount?, String.append_assoc, String.toList_append, Reader.literal_append]
  simp [Numeral.ofNat, Numeral.nat?_toDigits]

/-- **An assignment that is written reads back as itself.** -/
theorem read?_text (a : Assignment) : read? a.name a.text = some a := by
  -- A text has the letters of its sign once more than the name, which it has once or twice.
  have hcount {a b : String} (c : Char) (h : a.toList.count c ≠ b.toList.count c) : a ≠ b :=
    fun hab => h (hab ▸ rfl)
  cases a with
  | set name => exact if_pos rfl
  | clear name =>
    have hset : name ++ " := FALSE;" ≠ name ++ " := TRUE;" := by
      simp
    rw [Assignment.name, text, read?, if_neg hset, if_pos rfl]
  | add name amount =>
    have hset : name ++ " := " ++ name ++ " + " ++ Numeral.ofNat amount ++ ";" ≠
        name ++ " := TRUE;" := hcount '+' (by simp)
    have hclear : name ++ " := " ++ name ++ " + " ++ Numeral.ofNat amount ++ ";" ≠
        name ++ " := FALSE;" := hcount '+' (by simp)
    rw [Assignment.name, text, read?, if_neg hset, if_neg hclear, amount?_append]
  | subtract name amount =>
    have hset : name ++ " := " ++ name ++ " - " ++ Numeral.ofNat amount ++ ";" ≠
        name ++ " := TRUE;" := hcount '-' (by simp)
    have hclear : name ++ " := " ++ name ++ " - " ++ Numeral.ofNat amount ++ ";" ≠
        name ++ " := FALSE;" := hcount '-' (by simp)
    have hsign : amount? (name ++ " := " ++ name ++ " + ")
        (name ++ " := " ++ name ++ " - " ++ Numeral.ofNat amount ++ ";") = none := by
      rw [amount?, Reader.literal_eq_none]
      · rfl
      · simp [List.append_assoc, List.prefix_append_right_inj]
    rw [Assignment.name, text, read?, if_neg hset, if_neg hclear, hsign, amount?_append]
    rfl

end Assignment

namespace Value

/-- What the text of an arc makes of the variable of its place: an input takes, all others give. -/
def moved (arc : Arc) : Value → Value
  | .count number => .count (if arc.kind = .input then number - arc.weight else number + arc.weight)
  | .flag _ => .flag (arc.kind != .input)

@[simp] theorem type_moved (arc : Arc) (v : Value) : (v.moved arc).type = v.type := by
  cases v <;> rfl

def lower (amount : Nat) : Value → Value
  | .count number => .count (number - amount)
  | .flag set => .flag set

theorem lower_ofMark_eq_self {type : DataType} {mark amount : Nat} :
    (ofMark type mark).lower amount = ofMark type mark ↔ (type = .int → amount = 0) := by
  cases type with
  | int =>
    simp only [ofMark, lower, count.injEq, forall_const]
    omega
  | bool => simp [ofMark, lower]

def movedAll (arcs : List Arc) (v : Value) : Value := arcs.foldl (fun v arc => v.moved arc) v

theorem movedAll_append (arcs more : List Arc) (v : Value) :
    v.movedAll (arcs ++ more) = (v.movedAll arcs).movedAll more := List.foldl_append

theorem movedAll_count_input {arcs : List Arc} (h : ∀ arc ∈ arcs, arc.kind = .input)
    (number : Int) :
    (count number).movedAll arcs = .count (number - (arcs.map (·.weight)).sum) := by
  unfold movedAll
  induction arcs generalizing number with
  | nil => simp
  | cons arc arcs ih =>
    rw [List.foldl_cons, moved, if_pos (h arc List.mem_cons_self),
      ih fun arc harc => h arc (List.mem_cons_of_mem _ harc), List.map_cons, List.sum_cons]
    congr 1
    omega

theorem movedAll_count_output {arcs : List Arc} (h : ∀ arc ∈ arcs, arc.kind = .output)
    (number : Int) :
    (count number).movedAll arcs = .count (number + (arcs.map (·.weight)).sum) := by
  unfold movedAll
  induction arcs generalizing number with
  | nil => simp
  | cons arc arcs ih =>
    have hkind : arc.kind ≠ .input := by simp [h arc List.mem_cons_self]
    rw [List.foldl_cons, moved, if_neg hkind,
      ih fun arc harc => h arc (List.mem_cons_of_mem _ harc), List.map_cons, List.sum_cons]
    congr 1
    omega

theorem movedAll_flag {kind : ArcKind} {arcs : List Arc} (h : ∀ arc ∈ arcs, arc.kind = kind)
    (set : Bool) :
    (flag set).movedAll arcs = .flag (if arcs = [] then set else kind != .input) := by
  unfold movedAll
  induction arcs generalizing set with
  | nil => rfl
  | cons arc arcs ih =>
    rw [List.foldl_cons, moved, ih fun arc harc => h arc (List.mem_cons_of_mem _ harc),
      h arc List.mem_cons_self, ite_self, if_neg (List.cons_ne_nil _ _)]

end Value

end StructuredText

/-! ## What the texts of a transition do -/

open StructuredText

namespace Arc

def effect (arc : Arc) (place : Place) : String := (arc.assignment place).text

def perform? (arc : Arc) (place : Place) (v : Value) : Option Value :=
  (Assignment.read? place.name (arc.effect place)).bind (·.run? v)

theorem perform?_eq {arc : Arc} {place : Place} {v : Value} (hv : v.type = place.type) :
    arc.perform? place v = some (v.moved arc) := by
  have hname : (arc.assignment place).name = place.name := by
    unfold assignment
    cases place.type <;> cases arc.kind <;> rfl
  have hread := Assignment.read?_text (arc.assignment place)
  rw [hname] at hread
  rw [perform?, effect, hread, Option.bind_some, assignment, ← hv]
  cases v <;> cases hkind : arc.kind <;> simp [Value.type, Value.moved, Assignment.run?, hkind]

end Arc

namespace Net

/-- The variables of the places of a marking. -/
def values (net : Net) (m : Marking) : Table Place Value :=
  ⟨net.places.enumerate.map fun (r, place) => .ofMark place.type (m.mark r)⟩

def perform? (net : Net) (store : Table Place Value) (arc : Arc) :
    Option (Table Place Value) :=
  (store.get? arc.place).bind fun v =>
    (arc.perform? (net.place arc.place) v).map (store.set arc.place)

/-- Carries out the texts of a transition on the variables of a marking. -/
def execute? (net : Net) (m : Marking) (t : Ref Transition) : Option (Table Place Value) :=
  (net.movers t).foldlM net.perform? (net.values m)

variable {net : Net} {m : Marking} {t : Ref Transition} {r : Ref Place}

theorem text_assignments_blockOf (net : Net) (t : Ref Transition) :
    (Program.blockOf net t).assignments.map (·.text) =
      (net.movers t).map fun arc => arc.effect (net.place arc.place) :=
  List.map_map ..

theorem get?_values (net : Net) (m : Marking) (r : Ref Place) :
    (net.values m).get? r =
      (net.places.get? r).map fun place => .ofMark place.type (m.mark r) := by
  simp only [values, Table.get?, List.getElem?_map, Table.getElem?_enumerate, Option.map_map]
  rfl

def Typed (net : Net) (store : Table Place Value) : Prop :=
  ∀ r, (store.get? r).map Value.type = (net.places.get? r).map (·.type)

theorem typed_values (net : Net) (m : Marking) : net.Typed (net.values m) := by
  intro r
  rw [get?_values, Option.map_map]
  simp [Function.comp_def]

/-- Every text finds a variable of its type, so that all of them can be carried out. -/
theorem foldlM_perform? {arcs : List Arc} {store : Table Place Value}
    (h : net.Typed store) (harcs : ∀ arc ∈ arcs, arc.place.index < net.places.size) :
    arcs.foldlM net.perform? store =
      some (arcs.foldl (fun table arc => table.modify arc.place (Value.moved arc)) store) := by
  induction arcs generalizing store with
  | nil => rfl
  | cons arc arcs ih =>
    have hplace := Table.get?_eq_some (harcs arc List.mem_cons_self)
    have hv := h arc.place
    rw [hplace, Option.map_some, Option.map_eq_some_iff] at hv
    obtain ⟨v, hget, htype⟩ := hv
    have hperform : net.perform? store arc =
        some (store.modify arc.place (Value.moved arc)) := by
      have hfits : v.type = (net.place arc.place).type := by rw [htype, place_of_get? hplace]
      rw [perform?, hget, Option.bind_some, Arc.perform?_eq hfits, Option.map_some, Table.modify, hget]
    have hkept : net.Typed (store.modify arc.place (Value.moved arc)) := by
      intro r
      rw [← h r, Table.get?_modify]
      split <;> simp [Function.comp_def]
    rw [List.foldlM_cons, hperform]
    exact ih hkept fun arc harc => harcs arc (List.mem_cons_of_mem _ harc)

theorem kind_of_atPlace (hnet : net.Sound) {kind : ArcKind} {arc : Arc}
    (h : arc ∈ Arc.atPlace r (net.arcsOf t kind)) : arc.kind = kind := by
  have harc := (List.mem_filter.mp h).1
  rw [hnet.arcsOf_eq] at harc
  exact (of_decide_eq_true (List.mem_filter.mp harc).2).2

/-- **Every variable after the texts of a transition**: its place only sees its own arcs. -/
theorem execute?_eq (hnet : net.Sound) (m : Marking) (t : Ref Transition) :
    ∃ store, net.execute? m t = some store ∧ ∀ r, store.get? r =
      (net.places.get? r).map fun place => ((Value.ofMark place.type (m.mark r)).movedAll
        (Arc.atPlace r (net.arcsOf t .input))).movedAll (Arc.atPlace r (net.arcsOf t .output)) := by
  have hplaces : ∀ arc ∈ net.movers t, arc.place.index < net.places.size := by
    intro arc harc
    refine hnet.place_lt arc (mem_arcs_of_attached (t := t) ?_)
    rcases List.mem_append.mp harc with harc | harc <;> simp [attached, harc]
  refine ⟨_, foldlM_perform? (typed_values net m) hplaces, fun r => ?_⟩
  rw [Table.get?_foldl_modify fun _ arc => Value.moved arc, get?_values, Option.map_map, movers,
    Arc.atPlace, List.filter_append]
  simp only [Function.comp_def, ← Value.movedAll_append]
  rfl

/-- **The texts leave a count lower than a firing by what the input arcs ask of it beyond what it
holds**, and every flag as a firing does, as long as no count grows beyond its capacity. -/
theorem movedAll_ofMark (hnet : net.Sound) {place : Place}
    (hplace : net.places.get? r = some place)
    (hsize : m.size = net.places.size) (hmark : m.mark r ≤ place.type.capacity)
    (hfit : place.type = .int →
      m.mark r - net.flow t .input r + net.flow t .output r ≤ Numeral.maxNat64) :
    ((Value.ofMark place.type (m.mark r)).movedAll (Arc.atPlace r (net.arcsOf t .input))).movedAll
        (Arc.atPlace r (net.arcsOf t .output)) =
      (Value.ofMark place.type ((net.move m t).mark r)).lower
        (net.flow t .input r - m.mark r) := by
  have hr : r.index < m.size := by
    by_contra hout
    rw [hsize] at hout
    simp [Table.get?_eq_none hout] at hplace
  have htype : (net.place r).type = place.type := by rw [place_of_get? hplace]
  cases hkind : place.type with
  | int =>
    rw [hkind] at hmark htype
    have hfit := hfit hkind
    have hmoved : (net.move m t).mark r = m.mark r - net.flow t .input r + net.flow t .output r :=
      (mark_move_int hr htype hmark).trans (Nat.min_eq_left hfit)
    rw [Value.ofMark, Value.movedAll_count_input fun _ => kind_of_atPlace hnet,
      Value.movedAll_count_output fun _ => kind_of_atPlace hnet, hmoved, Value.ofMark, Value.lower]
    simp only [flow]
    congr 1
    omega
  | bool =>
    rw [hkind] at htype
    rw [Value.ofMark, Value.movedAll_flag fun _ => kind_of_atPlace hnet,
      Value.movedAll_flag fun _ => kind_of_atPlace hnet, mark_move_bool hr htype, Value.ofMark, Value.lower]
    split
    · split <;> rfl
    · rfl

/-- A single input arc from a place that is enabled asks for no more than it holds. -/
theorem flow_le_of_length_le_one (hnet : net.Sound) (harcs : net.arcsEnabled m t = true)
    (hsingle : (Arc.atPlace r (net.arcsOf t .input)).length ≤ 1) :
    net.flow t .input r ≤ m.mark r := by
  unfold flow
  match hat : Arc.atPlace r (net.arcsOf t .input), hsingle with
  | [], _ => exact Nat.zero_le _
  | [arc], _ =>
    have hmem : arc ∈ Arc.atPlace r (net.arcsOf t .input) := hat ▸ List.mem_singleton_self arc
    obtain ⟨harc, hplace⟩ := List.mem_filter.mp hmem
    have henabled : net.arcEnabled m arc = true :=
      List.all_eq_true.mp harcs arc (by simp [attached, harc])
    rw [arcEnabled, Arc.allows_take (.inl (kind_of_atPlace hnet hmem)),
      of_decide_eq_true hplace] at henabled
    simpa using henabled

/-! ### A mixer that takes twice from one place -/

/-- Two arcs take two parts each from a place that has three, and two parts are put back. -/
def mixer : NetDescription where
  places := [⟨"P1", "parts", .int, "3", []⟩]
  transitions := [{ id := "T1", name := "mix" }]
  arcs := [⟨"A1", "P1", "T1", .input, "2", []⟩, ⟨"A2", "P1", "T1", .input, "2", []⟩,
    ⟨"A3", "P1", "T1", .output, "2", []⟩]

def mixerNet : Net where
  places := ⟨[⟨"P1", "parts", .int, 3⟩]⟩
  transitions := ⟨[⟨"T1", "mix", {}, 0, .zero⟩]⟩
  arcs := ⟨[⟨"A1", ⟨0⟩, ⟨0⟩, .input, 2⟩, ⟨"A2", ⟨0⟩, ⟨0⟩, .input, 2⟩,
    ⟨"A3", ⟨0⟩, ⟨0⟩, .output, 2⟩]⟩
  attachments := ⟨[{ inputs := [⟨0⟩, ⟨1⟩], outputs := [⟨2⟩] }]⟩
  placeKeys := ⟨[("P1", ⟨0⟩)]⟩
  transitionKeys := ⟨[("T1", ⟨0⟩)]⟩
  order := [⟨0⟩]

def mixerReady : LiveNet := ⟨mixerNet, ⟨[3]⟩, ⟨[⟨0, true, true⟩]⟩⟩

theorem mixer_assembled : Net.assemble mixer = .ok mixerNet :=
  Net.assemble_eq_ok (by decide +kernel) (by decide +kernel)

theorem mixer_places {property : Ref Place → Place → Prop}
    (h : property ⟨0⟩ ⟨"P1", "parts", .int, 3⟩) (r : Ref Place) (place : Place)
    (hplace : mixerNet.places.get? r = some place) : property r place := by
  match r, hplace with
  | ⟨0⟩, hplace =>
    obtain rfl := Option.some.inj hplace
    exact h

/-- The mixer ends up with two parts, the program with one. -/
theorem mixer_differs :
    ¬ ∀ (description : NetDescription) (net : Net) (live : LiveNet) (t : Ref Transition),
      Net.assemble description = .ok net → live.net = net →
      live.marking.size = net.places.size →
      (∀ r place, net.places.get? r = some place →
        live.marking.mark r ≤ place.type.capacity) →
      live.isEnabled t = true → live.arcsEnabled t = true →
      (∀ r place, net.places.get? r = some place → place.type = .int →
        live.marking.mark r - net.flow t .input r + net.flow t .output r ≤ Numeral.maxNat64) →
      ∃ live' firing, live.fire t = .ok (live', firing) ∧
        net.execute? live.marking t = some (net.values live'.marking) := by
  intro h
  obtain ⟨live', firing, hfire, hexecute⟩ := h mixer mixerNet mixerReady ⟨0⟩ mixer_assembled rfl rfl
    (mixer_places (by decide)) rfl (by decide) (mixer_places (by decide))
  have htexts : mixerNet.execute? mixerReady.marking ⟨0⟩ = some ⟨[.count 1]⟩ := by decide +kernel
  have hfired : (mixerReady.fire ⟨0⟩).toOption.map (·.1.marking) = some ⟨[2]⟩ := by decide +kernel
  rw [hfire, Except.toOption, Option.map_some, Option.some.injEq] at hfired
  rw [hexecute, hfired] at htexts
  exact absurd htexts (by decide)

/-! ### Result -/

/-- **The texts of a transition and its firing agree exactly if no count is asked for more than it
holds.** As long as no count grows beyond its capacity both succeed, and what all input arcs of a
place together ask beyond its mark, the program goes below the firing. A single input arc never asks
for so much. -/
theorem execute_eq_values_iff {description : NetDescription}
    (hnet : Net.assemble description = .ok net) {live : LiveNet} (hlive : live.net = net)
    (hsize : live.marking.size = net.places.size)
    (hm : ∀ r place, net.places.get? r = some place →
      live.marking.mark r ≤ place.type.capacity)
    {t : Ref Transition} (hon : live.isEnabled t = true) (harcs : live.arcsEnabled t = true)
    (hfit : ∀ r place, net.places.get? r = some place → place.type = .int →
      live.marking.mark r - net.flow t .input r + net.flow t .output r ≤ Numeral.maxNat64) :
    (Program.blockOf net t).assignments.map (·.text) =
      (net.movers t).map (fun arc => arc.effect (net.place arc.place)) ∧
    ∃ store live' firing, net.execute? live.marking t = some store ∧
      live.fire t = .ok (live', firing) ∧
      (store = net.values live'.marking ↔ ∀ r place, net.places.get? r = some place →
        place.type = .int → net.flow t .input r ≤ live.marking.mark r) ∧
      (∀ r place, net.places.get? r = some place →
        store.get? r = some ((Value.ofMark place.type (live'.marking.mark r)).lower
          (net.flow t .input r - live.marking.mark r))) ∧
      ((∀ r, (Arc.atPlace r (net.arcsOf t .input)).length ≤ 1) →
        store = net.values live'.marking) := by
  subst hlive
  have hsound := assemble_sound hnet
  obtain ⟨store, hstore, hget⟩ := execute?_eq hsound live.marking t
  have hvariable : ∀ r place, live.net.places.get? r = some place →
      store.get? r = some ((Value.ofMark place.type ((live.fired t).marking.mark r)).lower
        (live.net.flow t .input r - live.marking.mark r)) := by
    intro r place hplace
    rw [hget, hplace, Option.map_some, movedAll_ofMark hsound hplace hsize
      (hm r place hplace) (hfit r place hplace)]
    rfl
  have hiff : store = live.net.values (live.fired t).marking ↔
      ∀ r place, live.net.places.get? r = some place →
        place.type = .int → live.net.flow t .input r ≤ live.marking.mark r := by
    refine ⟨fun hsame r place hplace htype => ?_, fun hheld => Table.ext_get? fun r => ?_⟩
    · have hat := hvariable r place hplace
      rw [hsame, get?_values, hplace, Option.map_some, Option.some.injEq] at hat
      rw [eq_comm, Value.lower_ofMark_eq_self] at hat
      exact Nat.le_of_sub_eq_zero (hat htype)
    · cases hplace : live.net.places.get? r with
      | none => rw [hget, get?_values, hplace, Option.map_none, Option.map_none]
      | some place =>
        rw [hvariable r place hplace, get?_values, hplace, Option.map_some, Option.some.injEq,
          Value.lower_ofMark_eq_self]
        exact fun htype => Nat.sub_eq_zero_of_le (hheld r place hplace htype)
  refine ⟨text_assignments_blockOf live.net t, store, live.fired t, live.firing t, hstore, ?_, hiff,
    hvariable, fun hsingle => hiff.mpr fun r place _ _ => ?_⟩
  · rw [LiveNet.fire, if_pos]
    rw [LiveNet.canFire, hon, harcs, Bool.and_self]
  · exact flow_le_of_length_le_one hsound harcs (hsingle r)

theorem mixer_execute :
    ∃ store live' firing, mixerNet.execute? mixerReady.marking ⟨0⟩ = some store ∧
      mixerReady.fire ⟨0⟩ = .ok (live', firing) ∧ store ≠ mixerNet.values live'.marking ∧
      store.get? ⟨0⟩ = some ((Value.ofMark .int (live'.marking.mark ⟨0⟩)).lower 1) := by
  obtain ⟨-, store, live', firing, hstore, hfire, hiff, hvariable, -⟩ :=
    execute_eq_values_iff mixer_assembled (show mixerReady.net = mixerNet from rfl) rfl
      (mixer_places (by decide)) (show mixerReady.isEnabled ⟨0⟩ = true from rfl) (by decide)
      (mixer_places (by decide))
  refine ⟨store, live', firing, hstore, hfire, fun hsame => ?_, hvariable ⟨0⟩ _ rfl⟩
  exact absurd (hiff.mp hsame ⟨0⟩ _ rfl rfl) (by decide)

end Net

end AutomationNet
