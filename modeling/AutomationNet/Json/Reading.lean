import AutomationNet.Json.Scan

/-!
# Reading scanned JSON

The readers of a scanned value. Each gives the value it asks for or the first fault that comes up
on the way, the text being read from left to right: a value of the wrong shape counts from where it
starts, unless the text breaks off or is malformed inside it.

* `Scan.mismatch` : the fault of a value that does not have the shape asked for
* `Scan.asString`, `asBool`, `asOptional`, `asName` : readers of single values
* `Scan.asItems`, `Scan.asMembers` : the parts of an array or object
* `Scan.asValue` : any value, to a bounded depth
* `Scan.skipped` : the fault of a value nobody asked for
* `Scan.asRecord` : the members of an object, sorted into the fields it must have and the others
* `Json.parse` : the value a whole text spells
-/

namespace AutomationNet.Json

/-- Arrays and objects may be nested up to one level less than this. -/
def depthLimit : Nat := 128

def orFault : Option Fault → Except Fault Unit
  | none => .ok ()
  | some fault => .error fault

namespace Scan

/-- The fault of a value that does not have the shape asked for. -/
def mismatch : Scan → Fault
  | .missing => .ended
  | .broken wanted _ | .brokenString wanted _ => wanted
  | .number none | .string none => .malformed
  | _ => .mismatched

def asString : Scan → Except Fault String
  | .string (some s) => .ok s
  | scan => .error scan.mismatch

def asBool : Scan → Except Fault Bool
  | .bool b => .ok b
  | scan => .error scan.mismatch

/-- A value that may be `null`. -/
def asOptional (read : Scan → Except Fault α) : Scan → Except Fault (Option α)
  | .null => .ok none
  | scan => (read scan).map some

/-- A name out of a fixed table, or an object with this key and the value `null`. -/
def asName (table : List (String × α)) : Scan → Except Fault α
  | .string (some s) => (table.lookup s).elim (.error .mismatched) .ok
  | .object members ending =>
    match members with
    | [] => .error (ending.getD .malformed)
    | (key, value) :: others => do
      let name ← key.asString
      let result ← (table.lookup name).elim (.error .mismatched) .ok
      match value with
      | .null => if others.isEmpty then orFault ending else .error .malformed
      | value => .error value.mismatch
      return result
  | .string none => .error .malformed
  | .brokenString wanted _ => .error wanted
  | .missing => .error .ended
  | _ => .error .malformed

/-- Every part read in order, then the fault at the end of the array. -/
def asList (read : Scan → Except Fault α) : Scan → Except Fault (List α)
  | .array items ending => do
    let values ← items.mapM read
    orFault ending
    return values
  | scan => .error scan.mismatch

mutual

/-- Any value, its arrays and objects nested less than `depth` levels deep. -/
def asValue (depth : Nat) : Scan → Except Fault Json
  | .null => .ok .null
  | .bool b => .ok (.bool b)
  | .number (some n) => .ok (.number n)
  | .string (some s) => .ok (.string s)
  | .array items ending =>
    match depth with
    | depth + 2 => do
      let values ← asValues (depth + 1) items
      orFault ending
      return .array values
    | _ => .error .malformed
  | .object members ending =>
    match depth with
    | depth + 2 => do
      let values ← asMembers (depth + 1) members
      orFault ending
      return .object (Json.sorted values)
    | _ => .error .malformed
  | .number none => .error .malformed
  | .string none => .error .malformed
  | .missing => .error .ended
  | .brokenString wanted _ => .error wanted
  | .broken wanted _ => .error wanted

def asValues (depth : Nat) : List Scan → Except Fault (List Json)
  | [] => .ok []
  | item :: rest => do
    let value ← asValue depth item
    let values ← asValues depth rest
    return value :: values

def asMembers (depth : Nat) : List (Scan × Scan) → Except Fault Members
  | [] => .ok []
  | (key, value) :: rest => do
    let key ← key.asString
    let value ← asValue depth value
    let values ← asMembers depth rest
    return (key, value) :: values

end

mutual

/-- The fault met while skipping over a value, if any. -/
def skipped : Scan → Option Fault
  | .missing => some .ended
  | .broken _ skipped => some skipped
  | .brokenString _ skipped => some skipped
  | .array items ending => (skippedItems items).or ending
  | .object members ending => (skippedMembers members).or ending
  | .null => none
  | .bool _ => none
  | .number _ => none
  | .string _ => none

/-- The first fault met while skipping over items. -/
def skippedItems : List Scan → Option Fault
  | [] => none
  | item :: rest => (skipped item).or (skippedItems rest)

def skippedMembers : List (Scan × Scan) → Option Fault
  | [] => none
  | (key, value) :: rest => ((skipped key).or (skipped value)).or (skippedMembers rest)

end

/-! ## Records -/

/-- What has been read of an object: the fields known to it, and its other members by key. -/
structure Record where
  known : List (String × Scan) := []
  extra : Members := []

/-- What becomes of a member that is no field of its record. -/
inductive Unknown where
  /-- It is kept, its value nested less than so many levels deep. -/
  | kept (depth : Nat)
  | skipped

/-- One member. A field that comes a second time is a mismatch before its value is looked at. -/
def Record.read (fields : List (String × (Scan → Except Fault Unit))) (unknown : Unknown)
    (record : Record) (member : Scan × Scan) : Except Fault Record := do
  let key ← member.1.asString
  match fields.lookup key with
  | some check =>
    if (record.known.lookup key).isSome then .error .mismatched
    else do
      check member.2
      return { record with known := record.known ++ [(key, member.2)] }
  | none =>
    match unknown with
    | .kept depth => do
      let value ← member.2.asValue depth
      return { record with extra := Json.insert key value record.extra }
    | .skipped => do
      orFault member.2.skipped
      return record

/-- The members of an object in order, then the fault at its end. -/
def asRecord (fields : List (String × (Scan → Except Fault Unit))) (unknown : Unknown) :
    Scan → Except Fault Record
  | .object members ending => do
    let record ← members.foldlM (Record.read fields unknown) {}
    orFault ending
    return record
  | scan => .error scan.mismatch

/-- The same for a record that may also be an array of its fields in order, which may stop early. -/
def asRecordOrList (fields : List (String × (Scan → Except Fault Unit))) (unknown : Unknown) :
    Scan → Except Fault Record
  | .array items ending => do
    let pairs := fields.zip items
    pairs.forM fun pair => pair.1.2 pair.2
    if fields.length < items.length then .error .malformed
    orFault ending
    return { known := pairs.map fun pair => (pair.1.1, pair.2) }
  | scan => scan.asRecord fields unknown

/-- A field without which the record is a mismatch. -/
def Record.required (record : Record) (field : String) (read : Scan → Except Fault α) :
    Except Fault α :=
  match record.known.lookup field with
  | some scan => read scan
  | none => .error .mismatched

/-- A field that has a value when it is absent. -/
def Record.optional (record : Record) (field : String) (absent : α)
    (read : Scan → Except Fault α) : Except Fault α :=
  match record.known.lookup field with
  | some scan => read scan
  | none => .ok absent

/-- Reads for the fault alone. -/
def check (read : Scan → Except Fault α) (scan : Scan) : Except Fault Unit := do
  let _ ← read scan

end Scan

/-- Reads a whole text: the value, and nothing after it but blanks. -/
def readText (read : Scan → Except Fault α) (text : String) : Except Fault α := do
  let (scan, rest) := scan text.toList
  let value ← read scan
  match rest with
  | some rest => if (skipSpace rest).isEmpty then return value else .error .malformed
  | none => return value

def parse (text : String) : Except Fault Json := readText (·.asValue depthLimit) text

end AutomationNet.Json
