import ZeptoPM.Types

/- JSON values: the events workers send, and the encodings kept in the JSON
   columns of the database. A column is written by one of the `of` functions and
   read back by the matching reader, which falls back to the empty value where
   the text is not what it expects. -/
namespace ZeptoPM

inductive Json where
  | null
  | bool (b : Bool)
  | num (n : Int)
  | str (s : String)
  | arr (elems : List Json)
  | obj (fields : List (String × Json))

namespace Json

/-- `value.get(key)`. -/
def get (v : Json) (key : String) : Option Json :=
  match v with
  | .obj fields => fields.lookup key
  | _ => none

def asStr : Json → Option String
  | .str s => some s
  | _ => none

def asArray : Json → Option (List Json)
  | .arr elems => some elems
  | _ => none

def asNat : Json → Option Nat
  | .num n => n.toNat?
  | _ => none

/-- `value.get(key).and_then(|v| v.as_str()).unwrap_or(default)`. -/
def strOr (v : Json) (key default : String) : String := ((v.get key).bind asStr).getD default

/-- The strings of an array field, other elements skipped; no field, no strings. -/
def strings (v : Json) (key : String) : List String :=
  (((v.get key).bind asArray).map (fun elems => elems.filterMap asStr)).getD []

/-! ## Columns -/

def ofVec (xs : List String) : Json := .arr (xs.map .str)

/-- `parse_json_vec`. -/
def parseVec (v : Json) : List String := ((v.asArray).bind (fun elems => elems.mapM asStr)).getD []

def ofMap (m : List (String × String)) : Json := .obj (m.map (fun e => (e.1, .str e.2)))

def parseMapEntries : List (String × Json) → Option (List (String × String))
  | [] => some []
  | (k, v) :: rest => do
    let s ← v.asStr
    let tail ← parseMapEntries rest
    pure ((k, s) :: tail)

/-- `parse_json_map`. -/
def parseMap : Json → List (String × String)
  | .obj fields => (parseMapEntries fields).getD []
  | _ => []

/-- serde's form of a `SystemTime`. -/
def ofTime (t : SystemTime) : Json :=
  .obj [("secs_since_epoch", .num (t / 1000 : Nat)),
    ("nanos_since_epoch", .num (t % 1000 * 1000000 : Nat))]

def parseTime (v : Json) : Option SystemTime := do
  let secs ← (v.get "secs_since_epoch").bind asNat
  let nanos ← (v.get "nanos_since_epoch").bind asNat
  pure (secs * 1000 + nanos / 1000000)

def ofMessage (m : ChannelMessage) : Json :=
  .obj [("from_job", .str m.fromJob), ("content", .str m.content),
    ("timestamp", ofTime m.timestamp), ("round", .num m.round)]

def parseMessage (v : Json) : Option ChannelMessage := do
  let fromJob ← (v.get "from_job").bind asStr
  let content ← (v.get "content").bind asStr
  let timestamp ← (v.get "timestamp").bind parseTime
  let round ← (v.get "round").bind asNat
  pure { fromJob, content, timestamp, round }

def ofHistory (h : List ChannelMessage) : Json := .arr (h.map ofMessage)

/-- `parse_json_channel_messages`. -/
def parseHistory (v : Json) : List ChannelMessage :=
  ((v.asArray).bind (fun elems => elems.mapM parseMessage)).getD []

/-! ## Reading a column back -/

@[simp] theorem parseVec_ofVec (xs : List String) : (ofVec xs).parseVec = xs := by
  have h : (xs.map Json.str).mapM asStr = some xs := by
    induction xs with
    | nil => rfl
    | cons x xs ih =>
      rw [List.map_cons, List.mapM_cons, ih]
      rfl
  simp [parseVec, ofVec, asArray, h]

@[simp] theorem parseMap_ofMap (m : List (String × String)) : (ofMap m).parseMap = m := by
  have h : parseMapEntries (m.map (fun e => (e.1, .str e.2))) = some m := by
    induction m with
    | nil => rfl
    | cons e m ih =>
      obtain ⟨k, v⟩ := e
      rw [List.map_cons, parseMapEntries, ih]
      rfl
  simp [parseMap, ofMap, h]

theorem parseTime_ofTime (t : SystemTime) : (ofTime t).parseTime = some t := by
  show some (t / 1000 * 1000 + t % 1000 * 1000000 / 1000000) = some t
  congr 1
  rw [Nat.mul_div_cancel _ (by decide)]
  exact Nat.div_add_mod' t 1000

theorem parseMessage_ofMessage (m : ChannelMessage) : (ofMessage m).parseMessage = some m := by
  show (do
    let timestamp ← (ofTime m.timestamp).parseTime
    pure ({ fromJob := m.fromJob, content := m.content, timestamp, round := m.round } :
      ChannelMessage)) = some m
  rw [parseTime_ofTime]
  rfl

@[simp] theorem parseHistory_ofHistory (h : List ChannelMessage) :
    (ofHistory h).parseHistory = h := by
  have hm : (h.map ofMessage).mapM parseMessage = some h := by
    induction h with
    | nil => rfl
    | cons m h ih =>
      rw [List.map_cons, List.mapM_cons, parseMessage_ofMessage, ih]
      rfl
  simp [parseHistory, ofHistory, asArray, hm]

end Json

end ZeptoPM
