import AutomationNet.Proofs.Net.Operation
import AutomationNet.Proofs.Net.Structure
import AutomationNet.StructuredText.Program
import Mathlib.Data.List.Basic

/-!
# Programs of running nets

A net that has been updated, fired, overridden and restarted still has the program that it had when it
was assembled. The program is not blind to marks: it declares those that the net starts from, so a
net that started from other marks would have another text.

* `Net.startingFrom` : the same net with other marks to start from
* `Net.program_startingFrom_iff` : **a program tells the marks that its net starts from**
* `LiveNet.program_operateAll` : **operations do not show in the program**
-/

namespace AutomationNet

open StructuredText

/-! ## Texts line by line -/

theorem toList_intercalate_newline (line : String) (lines : List String) :
    ("\n".intercalate (line :: lines)).toList =
      line.toList ++ lines.flatMap fun l => '\n' :: l.toList := by
  induction lines generalizing line with
  | nil => simp
  | cons next lines ih =>
    rw [String.intercalate_cons_cons, String.toList_append, String.toList_append, ih]
    simp

namespace StructuredText.Program

/-- The lines after the declarations of the places. -/
def linesAfterPlaces (p : Program) : List String :=
  ["", "    // inputs"] ++ p.inputs.map (·.text) ++
    ["", "    // transitions delays"] ++ p.timers.map (·.text) ++
    ["", "    // edge triggers"] ++ p.triggers.map (·.declaration.text) ++
    ["END_VAR", "", "PROGRAM"] ++ p.triggers.map (·.call) ++
    ["", "\n\n".intercalate (p.blocks.map (·.text)), "END_PROGRAM"]

theorem toList_render (p : Program) : p.render.toList =
    "VAR\n    // places".toList ++ (p.places.flatMap fun d => '\n' :: d.text.toList) ++
      p.linesAfterPlaces.flatMap fun l => '\n' :: l.toList := by
  have hlines : p.lines =
      "VAR" :: ("    // places" :: (p.places.map (·.text) ++ p.linesAfterPlaces)) := by
    simp [lines, linesAfterPlaces]
  rw [render, hlines, toList_intercalate_newline, List.flatMap_cons, List.flatMap_append,
    List.flatMap_map]
  simp

end StructuredText.Program

/-! ## Marks in the program -/

/-- Two texts up to a character that neither has before it. -/
theorem append_cons_inj {α : Type} {c : α} {a b rest rest' : List α} (ha : c ∉ a) (hb : c ∉ b)
    (h : a ++ c :: rest = b ++ c :: rest') : a = b ∧ rest = rest' := by
  induction a generalizing b with
  | nil =>
    cases b with
    | nil => exact ⟨rfl, (List.cons.inj h).2⟩
    | cons x b => exact absurd ((List.cons.inj h).1 ▸ List.mem_cons_self) hb
  | cons x a ih =>
    cases b with
    | nil => exact absurd ((List.cons.inj h).1 ▸ List.mem_cons_self) ha
    | cons y b =>
      obtain ⟨rfl, htail⟩ := List.cons.inj h
      obtain ⟨rfl, hrest⟩ :=
        ih (List.not_mem_of_not_mem_cons ha) (List.not_mem_of_not_mem_cons hb) htail
      exact ⟨rfl, hrest⟩

namespace DataType

def valueText : DataType → (mark : Nat) → String
  | .int, mark => Numeral.ofNat mark
  | .bool, mark => if 0 < mark then "TRUE" else "FALSE"

theorem semicolon_not_mem_valueText (type : DataType) (mark : Nat) :
    ';' ∉ (type.valueText mark).toList := by
  cases type with
  | int =>
    intro hmem
    have hmem : ';' ∈ Nat.toDigits 10 mark := by simpa [valueText, Numeral.ofNat] using hmem
    have hdigit := Nat.isDigit_of_mem_toDigits (by decide) (by decide) hmem
    exact absurd hdigit (by decide)
  | bool =>
    rw [valueText]
    split <;> decide

theorem valueText_inj {type : DataType} {mark mark' : Nat} (hmark : mark ≤ type.capacity)
    (hmark' : mark' ≤ type.capacity) (h : type.valueText mark = type.valueText mark') :
    mark = mark' := by
  cases type with
  | int =>
    have hdigits : Nat.toDigits 10 mark = Nat.toDigits 10 mark' := String.ofList_injective h
    rw [← Nat.ofDigitChars_ten_toDigits (n := mark), hdigits, Nat.ofDigitChars_ten_toDigits]
  | bool =>
    have hiff : 0 < mark ↔ 0 < mark' := by
      simp only [valueText] at h
      by_cases hpos : 0 < mark <;> by_cases hpos' : 0 < mark' <;> simp_all
    simp only [capacity] at hmark hmark'
    omega

end DataType

theorem StructuredText.Program.text_ofPlace (place : Place) : (ofPlace place).text =
    "    " ++ place.name ++ ": " ++ place.type.name ++
      (" := " ++ place.type.valueText place.initialMark) ++ ";" := by
  unfold ofPlace DataType.valueText
  cases place.type <;> rfl

namespace Net

variable {net : Net} {m m' : Marking}

/-- The same net with other marks to start from. -/
def startingFrom (net : Net) (m : Marking) : Net :=
  { net with
    places := ⟨net.places.enumerate.map fun (r, place) => { place with initialMark := m.mark r }⟩ }

theorem get?_places_startingFrom (net : Net) (m : Marking) (r : Ref Place) :
    (net.startingFrom m).places.get? r =
      (net.places.get? r).map fun place => { place with initialMark := m.mark r } := by
  simp only [startingFrom, Table.get?, List.getElem?_map, Table.getElem?_enumerate, Option.map_map]
  rfl

theorem startingFrom_initialMarking (net : Net) : net.startingFrom net.initialMarking = net := by
  have hplaces : (net.startingFrom net.initialMarking).places = net.places := by
    refine Table.ext_get? fun r => ?_
    rw [get?_places_startingFrom]
    cases hplace : net.places.get? r with
    | none => rfl
    | some place =>
      have hmark : net.initialMarking.mark r = place.initialMark := by
        have hget : net.places.toList[r.index]? = some place := hplace
        simp [Marking.mark, initialMarking, Table.get?, hget]
      rw [Option.map_some, hmark]
  exact congrArg (fun places => { net with places }) hplaces

theorem place_startingFrom (net : Net) (m : Marking) (r : Ref Place) :
    ((net.startingFrom m).place r).name = (net.place r).name ∧
      ((net.startingFrom m).place r).type = (net.place r).type := by
  rw [place, place, get?_places_startingFrom]
  cases net.places.get? r <;> exact ⟨rfl, rfl⟩

end Net

theorem Arc.test?_congr (arc : Arc) {place place' : Place} (hname : place.name = place'.name)
    (htype : place.type = place'.type) : arc.test? place = arc.test? place' := by
  rw [test?, test?, hname, htype]

theorem Arc.assignment_congr (arc : Arc) {place place' : Place} (hname : place.name = place'.name)
    (htype : place.type = place'.type) : arc.assignment place = arc.assignment place' := by
  rw [assignment, assignment, hname, htype]

namespace Net

variable {net : Net} {m m' : Marking}

/-- What the program does for a transition does not depend on the marks to start from. -/
theorem blockOf_startingFrom (net : Net) (m : Marking) (t : Ref Transition) :
    Program.blockOf (net.startingFrom m) t = Program.blockOf net t := by
  have htests : (Program.blockOf (net.startingFrom m) t).tests = (Program.blockOf net t).tests :=
    List.filterMap_congr fun arc _ => arc.test?_congr (net.place_startingFrom m arc.place).1
      (net.place_startingFrom m arc.place).2
  have hassignments : (Program.blockOf (net.startingFrom m) t).assignments =
      (Program.blockOf net t).assignments :=
    List.map_congr_left fun arc _ => arc.assignment_congr (net.place_startingFrom m arc.place).1
      (net.place_startingFrom m arc.place).2
  rw [Program.blockOf, Program.blockOf, Block.mk.injEq]
  exact ⟨rfl, htests, rfl, hassignments⟩

theorem linesAfterPlaces_startingFrom (net : Net) (m : Marking) :
    (Program.ofNet (net.startingFrom m)).linesAfterPlaces = (Program.ofNet net).linesAfterPlaces := by
  have hblocks : (Program.ofNet (net.startingFrom m)).blocks = (Program.ofNet net).blocks :=
    List.map_congr_left fun t _ => net.blockOf_startingFrom m t
  rw [Program.linesAfterPlaces, hblocks]
  rfl

def declarationLine (m : Marking) (entry : Ref Place × Place) : List Char :=
  '\n' :: (Program.ofPlace { entry.2 with initialMark := m.mark entry.1 }).text.toList

theorem declarationLine_append (m : Marking) (entry : Ref Place × Place) (rest : List Char) :
    declarationLine m entry ++ rest =
      '\n' :: ("    " ++ entry.2.name ++ ": " ++ entry.2.type.name ++ " := ").toList ++
        ((entry.2.type.valueText (m.mark entry.1)).toList ++ ';' :: rest) := by
  rw [declarationLine, Program.text_ofPlace]
  simp

/-- The lines that declare places tell the marks that the places start from. -/
theorem mark_eq_of_declarationLines (entries : List (Ref Place × Place))
    (hm : ∀ e ∈ entries, m.mark e.1 ≤ e.2.type.capacity)
    (hm' : ∀ e ∈ entries, m'.mark e.1 ≤ e.2.type.capacity) {rest rest' : List Char}
    (h : entries.flatMap (declarationLine m) ++ rest =
      entries.flatMap (declarationLine m') ++ rest') :
    ∀ e ∈ entries, m.mark e.1 = m'.mark e.1 := by
  induction entries with
  | nil => exact fun e he => absurd he List.not_mem_nil
  | cons entry entries ih =>
    rw [List.flatMap_cons, List.flatMap_cons, List.append_assoc, List.append_assoc,
      declarationLine_append, declarationLine_append] at h
    obtain ⟨hvalue, hrest⟩ := append_cons_inj (DataType.semicolon_not_mem_valueText _ _)
      (DataType.semicolon_not_mem_valueText _ _) (List.append_cancel_left h)
    have hmark : m.mark entry.1 = m'.mark entry.1 :=
      DataType.valueText_inj (hm entry List.mem_cons_self) (hm' entry List.mem_cons_self)
        (String.toList_inj.mp hvalue)
    intro e he
    rcases List.mem_cons.mp he with rfl | he
    · exact hmark
    · exact ih (fun e he => hm e (List.mem_cons_of_mem _ he))
        (fun e he => hm' e (List.mem_cons_of_mem _ he)) hrest e he

theorem toList_program_startingFrom (net : Net) (m : Marking) :
    (net.startingFrom m).program.toList =
      "VAR\n    // places".toList ++ net.places.enumerate.flatMap (declarationLine m) ++
        (Program.ofNet net).linesAfterPlaces.flatMap fun l => '\n' :: l.toList := by
  have hplaces : ((Program.ofNet (net.startingFrom m)).places.flatMap fun d =>
      '\n' :: d.text.toList) = net.places.enumerate.flatMap (declarationLine m) := by
    rw [Program.ofNet, startingFrom, List.flatMap_map, List.flatMap_map]
    rfl
  rw [program, Program.toList_render, hplaces, linesAfterPlaces_startingFrom]

/-- **A program tells the marks that its net starts from.** -/
theorem program_startingFrom_iff (hm : net.WithinCapacity m) (hm' : net.WithinCapacity m')
    (hsize : m.size = net.places.size) (hsize' : m'.size = net.places.size) :
    (net.startingFrom m).program = (net.startingFrom m').program ↔ m = m' := by
  refine ⟨fun h => ?_, fun h => h ▸ rfl⟩
  have hentry : ∀ m : Marking, net.WithinCapacity m → ∀ e ∈ net.places.enumerate,
      m.mark e.1 ≤ e.2.type.capacity := by
    intro m hm e he
    have hplace := place_of_get? (Table.mem_enumerate.mp he)
    exact hplace ▸ hm e.1
  have htext := congrArg String.toList h
  rw [toList_program_startingFrom, toList_program_startingFrom, List.append_assoc,
    List.append_assoc] at htext
  have hmarks := mark_eq_of_declarationLines net.places.enumerate (hentry m hm) (hentry m' hm')
    (List.append_cancel_left htext)
  refine Table.ext_get? fun r => ?_
  by_cases hr : r.index < net.places.size
  · have hmark := hmarks (r, net.places.toList[r.index])
      (Table.mem_enumerate.mpr (Table.get?_eq_some hr))
    simp only [Marking.mark, Table.get?_eq_some (hsize ▸ hr : r.index < m.size),
      Table.get?_eq_some (hsize' ▸ hr : r.index < m'.size), Option.getD_some] at hmark
    rw [Table.get?_eq_some (hsize ▸ hr : r.index < m.size),
      Table.get?_eq_some (hsize' ▸ hr : r.index < m'.size), hmark]
  · rw [Table.get?_eq_none (hsize ▸ hr), Table.get?_eq_none (hsize' ▸ hr)]

end Net

/-! ## Result -/

namespace LiveNet

variable {net : Net}

/-- **Operations do not show in the program.** It depends on the marks to start from alone: whatever
is done to a net, its program is the one it had before. -/
theorem program_operateAll {description : NetDescription}
    (hnet : Net.assemble description = .ok net) (operations : List Operation) :
    ((ofNet net).operateAll operations).net.program = net.program ∧
    ((((ofNet net).operateAll operations).net.startingFrom
        ((ofNet net).operateAll operations).marking).program = net.program ↔
      ((ofNet net).operateAll operations).marking = net.initialMarking) := by
  have hsound := Net.assemble_sound hnet
  have hsame : ((ofNet net).operateAll operations).net = net := net_operateAll _ _
  have hvalid := (Valid.ofNet hsound).operateAll hsound operations
  have hmark := hvalid.mark_le
  have hsize := hvalid.marking_size
  rw [hsame] at hmark hsize ⊢
  have hiff := Net.program_startingFrom_iff hmark hsound.initialMarking hsize
    (Valid.ofNet hsound).marking_size
  rw [net.startingFrom_initialMarking] at hiff
  exact ⟨rfl, hiff⟩

/-- The press is filled up and closed by hand, and opens after half a second. -/
def openPress : List Operation :=
  [.setMark "P1" 7, .setMark "P2" 1, .update ⟨1⟩ 500000000 ⟨[], []⟩,
    .update ⟨1⟩ 500000000 ⟨[], []⟩, .fire ⟨1⟩]

/-- There are more parts in the press than at the start, but its program still declares two. -/
theorem openPress_program :
    ((ofNet Net.pressNet).operateAll openPress).marking = ⟨[7, 0]⟩ ∧
    ((ofNet Net.pressNet).operateAll openPress).net.program = Net.pressNet.program ∧
    (((ofNet Net.pressNet).operateAll openPress).net.startingFrom ⟨[7, 0]⟩).program ≠
      Net.pressNet.program := by
  obtain ⟨hprogram, hiff⟩ := program_operateAll Net.press_assembled openPress
  have hmarking : ((ofNet Net.pressNet).operateAll openPress).marking = ⟨[7, 0]⟩ := by
    decide +kernel
  have hdiffer : (⟨[7, 0]⟩ : Marking) ≠ Net.pressNet.initialMarking := by decide
  rw [hmarking] at hiff
  exact ⟨hmarking, hprogram, fun hsame => hdiffer (hiff.mp hsame)⟩

end LiveNet

end AutomationNet
