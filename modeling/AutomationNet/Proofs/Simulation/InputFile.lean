import AutomationNet.CommandLine.Command
import AutomationNet.Proofs.Json.Canonical
import AutomationNet.Proofs.Simulation.Gap

/-!
# Inputs from a file

An accessor that reads a file gives the values that its inputs are declared with, under those of the
files it has read. A file counts only if all of it does: one that cannot be read, that is no object, or
that has a single member which is no number leaves every value as it is.

* `InputValues.Counts`, `InputValues.given?` : a file that counts, and what it gives a name
* `InputValues.declared?` : what a name is declared with
* `InputValues.reading` : the values after some files
* `InputValues.lookup_reread`, `InputValues.reread_of_not_counts` : what one more file changes
* `InputValues.lookup_reading` : the latest file that counts and has a name gives its value
* `Viewing.readInputs_eq` : the program reads its inputs in this way
* `Session.Fed` : the sessions whose inputs come from a file
* `InputValues.reading_spec` : **what the accessor gives, name by name, and that a session that is fed
  by it never misses an input**
-/

namespace AutomationNet

/-! ## Values by name -/

section Entries

variable {α : Type}

theorem lookup_cons_eq (entry : String × α) (entries : List (String × α)) (name : String) :
    (entry :: entries).lookup name =
      if name = entry.1 then some entry.2 else entries.lookup name := by
  obtain ⟨key, value⟩ := entry
  by_cases h : name = key
  · subst h
    rw [List.lookup_cons_self, if_pos rfl]
  · rw [List.lookup_cons, beq_eq_false_iff_ne.mpr h, if_neg h]

theorem lookup_upsert (key : String) (value : α) (entries : List (String × α)) (name : String) :
    (upsert key value entries).lookup name =
      if name = key then some value else entries.lookup name := by
  induction entries with
  | nil => exact lookup_cons_eq (key, value) [] name
  | cons entry entries ih =>
    unfold upsert
    split
    · rename_i hkey
      rw [lookup_cons_eq, lookup_cons_eq, hkey]
      split <;> rfl
    · rename_i hkey
      rw [lookup_cons_eq, lookup_cons_eq, ih]
      by_cases h : name = key
      · subst h
        rw [if_pos rfl, if_neg (Ne.symm hkey), if_pos rfl]
      · rw [if_neg h, if_neg h]

theorem lookup_eq_none_of_not_mem {entries : List (String × α)} {name : String}
    (h : name ∉ entries.map Prod.fst) : entries.lookup name = none := by
  rw [List.lookup_eq_none_iff]
  intro entry hentry
  refine bne_iff_ne.mpr fun heq => h ?_
  rw [heq]
  exact List.mem_map_of_mem hentry

theorem lookup_reverse {entries : List (String × α)} (h : (entries.map Prod.fst).Nodup)
    (name : String) : entries.reverse.lookup name = entries.lookup name := by
  induction entries with
  | nil => rfl
  | cons entry entries ih =>
    obtain ⟨hkey, hrest⟩ := List.nodup_cons.mp h
    rw [List.reverse_cons, List.lookup_append, ih hrest, lookup_cons_eq, lookup_cons_eq,
      List.lookup_nil]
    by_cases hname : name = entry.1
    · subst hname
      rw [if_pos rfl, if_pos rfl, lookup_eq_none_of_not_mem hkey, Option.none_or]
    · rw [if_neg hname, if_neg hname, Option.or_none]

end Entries

namespace InputValues

/-- Of values that are put on top of others, the last one of a name counts. -/
theorem lookup_overlay (values more : InputValues) (name : String) :
    (values.overlay more).lookup name = (more.reverse.lookup name).or (values.lookup name) := by
  induction more using List.reverseRecOn with
  | nil => rfl
  | append_singleton more entry ih =>
    rw [overlay, List.foldl_append, List.foldl_cons, List.foldl_nil, lookup_upsert, ← overlay, ih,
      List.reverse_append, List.reverse_singleton, List.singleton_append, lookup_cons_eq]
    split <;> rfl

/-! ## Files -/

/-- The object that a file holds, if it can be read and holds one. -/
def object? (content : Option String) : Option Json.Members :=
  content.bind fun text =>
    match Json.parse text with
    | .ok (.object members) => some members
    | _ => none

/-- A file counts if it holds an object of numbers and truth values only. -/
def Counts (content : Option String) : Prop :=
  ∃ members, object? content = some members ∧ ∀ member ∈ members, (number? member.2).isSome = true

/-- What a file gives a name: nothing unless all of the file counts. -/
def given? (name : String) (content : Option String) : Option Binary64 :=
  (object? content).bind fun members =>
    if members.all fun member => (number? member.2).isSome then
      (members.lookup name).bind number?
    else none

theorem ofMembers?_cons (member : String × Json) (members : Json.Members) :
    ofMembers? (member :: members) = (number? member.2).bind fun value =>
      (ofMembers? members).map fun values => (member.1, value) :: values := by
  rw [ofMembers?, List.mapM_cons, ofMembers?]
  cases number? member.2 with
  | none => rfl
  | some value =>
    cases members.mapM fun member => (number? member.2).map fun value => (member.1, value) with
    | none => rfl
    | some values => rfl

/-- The members of an object have values together or not at all. -/
theorem isSome_ofMembers? (members : Json.Members) :
    (ofMembers? members).isSome = members.all fun member => (number? member.2).isSome := by
  induction members with
  | nil => rfl
  | cons member members ih =>
    rw [ofMembers?_cons, List.all_cons, ← ih]
    cases number? member.2 with
    | none => rfl
    | some value => exact Option.isSome_map

theorem ofMembers?_eq_some {members : Json.Members} {values : InputValues}
    (h : ofMembers? members = some values) :
    values.map Prod.fst = members.map Prod.fst ∧
      ∀ name, values.lookup name = (members.lookup name).bind number? := by
  induction members generalizing values with
  | nil =>
    cases h
    exact ⟨rfl, fun _ => rfl⟩
  | cons member members ih =>
    rw [ofMembers?_cons, Option.bind_eq_some_iff] at h
    obtain ⟨value, hvalue, h⟩ := h
    obtain ⟨rest, hrest, rfl⟩ := Option.map_eq_some_iff.mp h
    obtain ⟨hkeys, hlookup⟩ := ih hrest
    refine ⟨by rw [List.map_cons, List.map_cons, hkeys], fun name => ?_⟩
    rw [lookup_cons_eq, lookup_cons_eq, hlookup]
    split
    · exact hvalue.symm
    · rfl

theorem nodup_keys_of_object? {content : Option String} {members : Json.Members}
    (h : object? content = some members) : (members.map Prod.fst).Nodup := by
  obtain ⟨text, -, hobject⟩ := Option.bind_eq_some_iff.mp h
  split at hobject
  · rename_i hparse
    cases hobject
    have hcanonical : Json.Canonical Json.depthLimit (.object members) :=
      Json.asValue_canonical (Json.scan_fits text.toList) (Json.readText_eq_ok.mp hparse).1
    rw [List.Nodup, List.pairwise_map]
    refine hcanonical.2.1.imp fun hlt heq => ?_
    rw [heq] at hlt
    exact String.lt_irrefl _ hlt
  · cases hobject

theorem bind_parse?_eq (content : Option String) :
    content.bind parse? = (object? content).bind ofMembers? := by
  cases content with
  | none => rfl
  | some text =>
    rw [object?, Option.bind_some, Option.bind_some, parse?]
    cases Json.parse text with
    | error fault => rfl
    | ok value =>
      cases value with
      | object members => rfl
      | _ => rfl

/-- A file that counts gives names their values; any other is as good as none. -/
theorem bind_parse?_cases (content : Option String) :
    (Counts content ∧ ∃ values, content.bind parse? = some values ∧
        ∀ name, values.reverse.lookup name = given? name content) ∨
      (¬ Counts content ∧ content.bind parse? = none ∧ ∀ name, given? name content = none) := by
  rw [bind_parse?_eq]
  cases hobject : object? content with
  | none =>
    refine .inr ⟨?_, rfl, fun name => by rw [given?, hobject]; rfl⟩
    rintro ⟨members, hmembers, -⟩
    cases hobject.symm.trans hmembers
  | some members =>
    have hgiven : ∀ name, given? name content =
        if members.all fun member => (number? member.2).isSome then
          (members.lookup name).bind number?
        else none := fun name => by rw [given?, hobject, Option.bind_some]
    have hall := isSome_ofMembers? members
    rw [Option.bind_some]
    cases hvalues : ofMembers? members with
    | none =>
      rw [hvalues, Option.isSome_none] at hall
      refine .inr ⟨?_, rfl, fun name => by rw [hgiven, ← hall]; rfl⟩
      rintro ⟨members', hmembers, hnumbers⟩
      cases hobject.symm.trans hmembers
      rw [List.all_eq_true.mpr hnumbers] at hall
      exact Bool.false_ne_true hall
    | some values =>
      rw [hvalues, Option.isSome_some] at hall
      obtain ⟨hkeys, hlookup⟩ := ofMembers?_eq_some hvalues
      refine .inl ⟨⟨members, hobject, List.all_eq_true.mp hall.symm⟩, values, rfl, fun name => ?_⟩
      rw [lookup_reverse (hkeys ▸ nodup_keys_of_object? hobject), hlookup, hgiven, ← hall, if_pos rfl]

/-- One file more: it gives the names that it has their values, and the others keep theirs. -/
theorem lookup_reread (values : InputValues) (content : Option String) (name : String) :
    (values.reread content).lookup name = (given? name content).or (values.lookup name) := by
  unfold reread
  rcases bind_parse?_cases content with ⟨-, more, hmore, hgiven⟩ | ⟨-, hnone, hgiven⟩
  · rw [hmore]
    exact (lookup_overlay values more name).trans (by rw [hgiven])
  · rw [hnone, hgiven]
    rfl

theorem reread_of_not_counts (values : InputValues) {content : Option String}
    (h : ¬ Counts content) : values.reread content = values := by
  unfold reread
  rcases bind_parse?_cases content with ⟨hcounts, -⟩ | ⟨-, hnone, -⟩
  · exact absurd hcounts h
  · rw [hnone]

/-! ## Readings -/

/-- The number that a name is declared with, by the last of its declarations. -/
def declared? (inputs : List InputDescription) (name : String) : Option Binary64 :=
  (inputs.reverse.find? fun input => input.name = name).map (·.initialNumber)

/-- What the accessor gives after some files. -/
def reading (inputs : List InputDescription) (contents : List (Option String)) : InputValues :=
  contents.foldl reread (ofDeclared inputs)

variable {inputs : List InputDescription}

theorem reading_append_singleton (inputs : List InputDescription) (contents : List (Option String))
    (content : Option String) :
    reading inputs (contents ++ [content]) = (reading inputs contents).reread content :=
  List.foldl_append ..

theorem lookup_ofDeclared (inputs : List InputDescription) (name : String) :
    (ofDeclared inputs).lookup name = declared? inputs name := by
  have hfind : ∀ inputs : List InputDescription,
      (inputs.map fun input => (input.name, input.initialNumber)).lookup name =
        (inputs.find? fun input => input.name = name).map (·.initialNumber) := by
    intro inputs
    induction inputs with
    | nil => rfl
    | cons input inputs ih =>
      rw [List.map_cons, lookup_cons_eq, ih]
      by_cases h : name = input.name
      · rw [if_pos h, List.find?_cons_of_pos (by simp [h])]
        rfl
      · rw [if_neg h, List.find?_cons_of_neg (by simpa using Ne.symm h)]
  rw [ofDeclared, lookup_overlay, ← List.map_reverse, hfind, List.lookup_nil, Option.or_none]
  rfl

/-- **The latest file that counts and has a name gives its value**, and the declaration if there is
none. -/
theorem lookup_reading (inputs : List InputDescription) (contents : List (Option String))
    (name : String) :
    (reading inputs contents).lookup name =
      (contents.reverse.findSome? (given? name)).or (declared? inputs name) := by
  induction contents using List.reverseRecOn with
  | nil => exact lookup_ofDeclared inputs name
  | append_singleton contents content ih =>
    rw [reading_append_singleton, lookup_reread, ih, List.reverse_append, List.reverse_singleton,
      List.singleton_append, List.findSome?_cons]
    cases given? name content with
    | none => rfl
    | some value => rfl

/-- Every declared input has a value. -/
theorem isSome_lookup_reading {input : InputDescription} (h : input ∈ inputs)
    (contents : List (Option String)) :
    ((reading inputs contents).lookup input.name).isSome = true := by
  have hdeclared : (declared? inputs input.name).isSome = true := by
    rw [declared?, Option.isSome_map, List.find?_isSome]
    exact ⟨input, List.mem_reverse.mpr h, decide_eq_true rfl⟩
  rw [lookup_reading, Option.isSome_or, hdeclared, Bool.or_true]

end InputValues

/-! ## The program -/

namespace CommandLine.Viewing

variable {m : Type → Type} [Monad m]

/-- What the file of the inputs holds. -/
def content (v : Viewing) (host : Host m) : m (Option String) :=
  match v.inputs with
  | none => pure none
  | some path => Except.toOption <$> host.read path

/-- The program reads its inputs from what the file holds at the time. -/
theorem readInputs_eq [LawfulMonad m] (v : Viewing) (host : Host m) (last : InputValues) :
    v.readInputs host last = last.reread <$> v.content host := by
  unfold readInputs content
  cases v.inputs with
  | none =>
    symm
    exact map_pure last.reread none
  | some path =>
    rw [← comp_map, map_eq_pure_bind]
    refine bind_congr fun result => ?_
    cases result <;> rfl

end CommandLine.Viewing

/-! ## Sessions -/

namespace Session

/-- The sessions whose accessor reads a file, once at the start and once in every tick, with all that
the file has held at these times. -/
inductive Fed (net : Net) : List (Option String) → Session → Prop where
  | start (mode : FiringMode) (step : Duration) (content : Option String) :
      Fed net [content] (.start net mode (InputValues.reading net.inputs [content]) step)
  | tick {contents : List (Option String)} {s : Session} (h : Fed net contents s)
      {order : List (Ref Transition)} {content : Option String} {tick : Tick}
      (hrun : s.runTick order (InputValues.reading net.inputs (contents ++ [content])) = .ok tick) :
      Fed net (contents ++ [content]) tick.session
  | setMark {contents : List (Option String)} {s s' : Session} (h : Fed net contents s)
      {place : ElementId} {mark : Int} (hset : s.setMark place mark = .ok s') : Fed net contents s'
  | addToken {contents : List (Option String)} {s s' : Session} (h : Fed net contents s)
      {place : ElementId} (hadd : s.addToken place = .ok s') : Fed net contents s'
  | exit {contents : List (Option String)} {s : Session} (h : Fed net contents s) :
      Fed net contents s.exit

namespace Fed

variable {net : Net} {contents : List (Option String)} {s : Session}

theorem names_eq (h : Fed net contents s) :
    s.history.map (·.name) = net.inputNames := by
  induction h with
  | start mode step content =>
    exact (List.map_map ..).trans (List.map_id _)
  | tick _ hrun ih =>
    rw [(missing_warnings_runTick hrun).1, InputHistory.refresh, List.map_map, ← ih]
    exact List.map_congr_left fun track _ => track.name_refresh _
  | setMark _ hset ih =>
    obtain ⟨_, -, rfl⟩ := setMark_eq_ok.mp hset
    exact ih
  | addToken _ hadd ih =>
    obtain ⟨_, hset⟩ := setMark_of_addToken hadd
    obtain ⟨_, -, rfl⟩ := setMark_eq_ok.mp hset
    exact ih
  | exit _ ih => exact ih

theorem warnings_eq_nil (h : Fed net contents s) (content : Option String) :
    s.history.warnings (InputValues.reading net.inputs (contents ++ [content])) = [] := by
  refine InputHistory.warnings_eq_nil fun track htrack => ?_
  have hname : track.name ∈ net.inputNames := h.names_eq ▸ List.mem_map_of_mem htrack
  obtain ⟨input, hinput, heq⟩ := List.mem_map.mp hname
  rw [← heq]
  exact InputValues.isSome_lookup_reading hinput _

end Fed

end Session

/-! ## Result -/

namespace InputValues

open CommandLine in
/-- **What an accessor that reads a file gives.** A name has the value that the latest file gives it
that counts as a whole, or the one it is declared with. So every declared input has a value, and no
tick of a session that is fed in this way warns about a missing one. -/
theorem reading_spec (inputs : List InputDescription) (contents : List (Option String)) :
    (∀ {m : Type → Type} [Monad m] [LawfulMonad m] (v : Viewing) (host : Host m),
      v.readInputs host (reading inputs contents) =
        (fun content => reading inputs (contents ++ [content])) <$> v.content host) ∧
    (∀ name, (reading inputs contents).lookup name =
      (contents.reverse.findSome? (given? name)).or (declared? inputs name)) ∧
    (∀ content, ¬ Counts content →
      reading inputs (contents ++ [content]) = reading inputs contents) ∧
    (∀ input ∈ inputs, ((reading inputs contents).lookup input.name).isSome = true) ∧
    ∀ (net : Net) (s : Session), net.inputs = inputs → Session.Fed net contents s →
      ∀ (order : List (Ref Transition)) (content : Option String),
        s.history.warnings (reading inputs (contents ++ [content])) = [] ∧
        ∀ tick, s.runTick order (reading inputs (contents ++ [content])) = .ok tick →
          ∀ warning ∈ tick.warnings, warning.isMissingInput = false := by
  refine ⟨fun v host => ?_, lookup_reading inputs contents, fun content hbad => ?_,
    fun input hinput => isSome_lookup_reading hinput contents,
    fun net s hinputs hfed order content => ?_⟩
  · simp only [reading_append_singleton]
    exact v.readInputs_eq host _
  · rw [reading_append_singleton, reread_of_not_counts _ hbad]
  · subst hinputs
    refine ⟨hfed.warnings_eq_nil content, fun tick hrun warning hwarning => ?_⟩
    have hnone := (Session.missing_warnings_runTick hrun).2.trans (hfed.warnings_eq_nil content)
    exact Bool.eq_false_iff.mpr (List.filter_eq_nil_iff.mp hnone warning hwarning)

/-- A gate with a limit and a door that is closed unless a file says otherwise. -/
def gateInputs : List InputDescription := [⟨"limit", .int, "7", ""⟩, ⟨"door", .bool, "TRUE", ""⟩]

/-- A file that cannot be read, a good one, one with a word for a number, and no object. -/
def gateFiles : List (Option String) :=
  [none, some "\x7b\"limit\": 3\x7d", some "\x7b\"door\": false, \"limit\": \"high\"\x7d", some "[1]"]

/-- The door stays as it is declared, although a file has a good value for it before its bad one. -/
theorem gate_reading :
    (reading gateInputs gateFiles).lookup "limit" = some (.ofInt 3) ∧
    (reading gateInputs gateFiles).lookup "door" = some .one ∧
    (Session.start { inputs := gateInputs } .automation (reading gateInputs [none])
      10000000).history.warnings (reading gateInputs [none, some "[1]"]) = [] := by
  obtain ⟨-, hlookup, -⟩ := reading_spec gateInputs gateFiles
  obtain ⟨-, -, -, -, hsession⟩ := reading_spec gateInputs [none]
  exact ⟨(hlookup "limit").trans (by decide +kernel), (hlookup "door").trans (by decide +kernel),
    (hsession { inputs := gateInputs } _ rfl (.start .automation 10000000 none) [] (some "[1]")).1⟩

end InputValues

end AutomationNet
