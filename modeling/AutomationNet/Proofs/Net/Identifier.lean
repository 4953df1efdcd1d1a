import AutomationNet.Proofs.Net.Assembled
import AutomationNet.Net.Live

/-!
# Identifiers

The elements of an assembled net have identifiers of their own, so that an identifier found in a
report leads back to its element.

* `Net.ids` : the identifiers of all elements
* `Net.assemble_ids_nodup` : **the elements of an assembled net have different identifiers**
* `Net.placeRef?_eq`, `Net.arc?_eq`, `Net.transition_eq_of_id` : from an identifier to its element
-/

namespace AutomationNet

theorem Table.eq_of_key {κ α : Type} {t : Table κ α} {key : α → ElementId} {r s : Ref κ} {a b : α}
    (h : (t.toList.map key).Nodup) (ha : t.get? r = some a) (hb : t.get? s = some b)
    (hkey : key a = key b) : r = s := by
  have hr : (t.toList.map key)[r.index]? = some (key a) := by
    rw [List.getElem?_map, show t.toList[r.index]? = some a from ha]
    rfl
  have hs : (t.toList.map key)[s.index]? = some (key a) := by
    rw [List.getElem?_map, show t.toList[s.index]? = some b from hb, hkey]
    rfl
  have hlt := (List.getElem?_eq_some_iff.mp hr).1
  exact Ref.ext ((List.getElem?_inj hlt h).mp (hr.trans hs.symm))

namespace Net

def ids (net : Net) : List ElementId := idsOf net.places net.transitions net.arcs

def arc? (net : Net) (id : ElementId) : Option Arc := net.arcs.toList.find? fun arc => arc.id == id

variable {net : Net}

/-- **The elements of an assembled net have different identifiers.** -/
theorem assemble_ids_nodup {description : NetDescription} (h : assemble description = .ok net) :
    net.ids.Nodup := by
  obtain ⟨draft, hdraft, rfl⟩ := exists_draft h
  exact hdraft.registered.perm.nodup_iff.mp hdraft.registered.nodup

theorem placeRef?_eq (h : net.Sound) {r : Ref Place} {place : Place}
    (hplace : net.places.get? r = some place) : net.placeRef? place.id = some r :=
  (h.placeKeys_inverts _ _).mpr ⟨place, hplace, rfl⟩

theorem transition_eq_of_id (h : net.ids.Nodup) {t u : Ref Transition}
    (ht : t.index < net.transitions.size) (hu : u.index < net.transitions.size)
    (hid : (net.transition t).id = (net.transition u).id) : t = u := by
  have hnodup := (List.nodup_append.mp (List.nodup_append.mp h).1).2.1
  exact Table.eq_of_key hnodup (get?_transition ht) (get?_transition hu) hid

theorem arc?_eq (h : net.ids.Nodup) {arc : Arc} (harc : arc ∈ net.arcs.toList) :
    net.arc? arc.id = some arc := by
  cases hfind : net.arc? arc.id with
  | none =>
    have := List.find?_eq_none.mp hfind arc harc
    simp at this
  | some found =>
    have hid : found.id = arc.id := by simpa using List.find?_some hfind
    have hmem : found ∈ net.arcs.toList := List.mem_of_find?_eq_some hfind
    rw [List.inj_on_of_nodup_map (List.nodup_append.mp h).2.1 hmem harc hid]

theorem filterMap_arc? (h : net.ids.Nodup) (t : Ref Transition) (kind : ArcKind) :
    ((net.arcsOf t kind).map (·.id)).filterMap net.arc? = net.arcsOf t kind := by
  have harc : ∀ arc ∈ net.arcsOf t kind, net.arc? arc.id = some arc := fun arc harc =>
    arc?_eq h (mem_arcs_of_mem_arcsOf harc)
  rw [List.filterMap_map]
  exact (List.filterMap_congr harc).trans List.filterMap_some

end Net

end AutomationNet
