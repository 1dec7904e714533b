import HttpServer.Json.Reader

/-!
# Reading a record

A record is a value whose members have fixed names and kinds. In a document it is an object, its
members in any order; members that are missing keep the value that the record started with, unknown
ones are passed over, and a known name must not come twice. A record may also be written as the list
of its members' values in their fixed order, of which the last ones may be missing.

The readers for single values refuse a value of another kind only after it was found to be well
formed, except for lists and objects, which are refused at their opening bracket.
-/

namespace HttpServer

namespace Json.Scan

/-- Why a token of another kind is refused: a malformed one for being so, any other for its kind. -/
def refuse (bs : Bytes) : Fault :=
  let after {α : Type} (r : Except Fault α) : Fault :=
    match r with
    | .error f => f
    | .ok _ => .unfit
  match bs with
  | [] => .endOfInput
  | b :: r =>
    if b = 110 then after (literal (Bytes.ascii "ull") r)
    else if b = 116 then after (literal (Bytes.ascii "rue") r)
    else if b = 102 then after (literal (Bytes.ascii "alse") r)
    else if b = 45 ∨ Bytes.isDigit b then after (number (b :: r))
    else if b = 34 then after (string r)
    else if b = 91 ∨ b = 123 then .unfit
    else .malformed

/-- A whole number within bounds. -/
def wholeBetween (low high : Int) (bs : Bytes) : Result Int :=
  let bs := dropGap bs
  match bs with
  | [] => .error .endOfInput
  | b :: _ =>
    if b = 45 ∨ Bytes.isDigit b then
      match number bs with
      | .error f => .error f
      | .ok (.whole n, r) => if low ≤ n ∧ n ≤ high then .ok (n, r) else .error .unfit
      | .ok (.float _, _) => .error .unfit
    else .error (refuse bs)

/-- A truth value. -/
def truth (bs : Bytes) : Result Bool :=
  let bs := dropGap bs
  match bs with
  | [] => .error .endOfInput
  | b :: r =>
    if b = 116 then (literal (Bytes.ascii "rue") r).map fun r => (true, r)
    else if b = 102 then (literal (Bytes.ascii "alse") r).map fun r => (false, r)
    else .error (refuse bs)

/-- A string. -/
def text (bs : Bytes) : Result Bytes :=
  let bs := dropGap bs
  match bs with
  | [] => .error .endOfInput
  | b :: r => if b = 34 then string r else .error (refuse bs)

/-- A value that may be left open by writing null. -/
def optional {α : Type} (read : Bytes → Result α) (bs : Bytes) : Result (Option α) :=
  let bs := dropGap bs
  match bs with
  | [] => .error .endOfInput
  | b :: r =>
    if b = 110 then (literal (Bytes.ascii "ull") r).map fun r => (none, r)
    else (read bs).map fun (v, r) => (some v, r)

/-- Null. -/
def unit (bs : Bytes) : Except Fault Bytes :=
  let bs := dropGap bs
  match bs with
  | [] => .error .endOfInput
  | b :: r => if b = 110 then literal (Bytes.ascii "ull") r else .error (refuse bs)

/-- The value that goes with a name. -/
def named {α : Type} (table : List (Bytes × α)) (r : Result Bytes) : Result α :=
  match r with
  | .error f => .error f
  | .ok (name, r) =>
    match table.find? fun row => row.1 == name with
    | some row => .ok (row.2, r)
    | none => .error .unfit

/-- A string at a place where the grammar allows nothing else. -/
def name (bs : Bytes) : Result Bytes :=
  match dropGap bs with
  | [] => .error .endOfInput
  | b :: r => if b = 34 then string r else .error .malformed

/-- One of several names: a string, or an object with that name as its only member and null as its
value. -/
def choice {α : Type} (table : List (Bytes × α)) (bs : Bytes) : Result α :=
  match dropGap bs with
  | [] => .error .endOfInput
  | b :: r =>
    if b = 34 then named table (string r)
    else if b = 123 then
      match named table (name r) with
      | .error f => .error f
      | .ok (v, r) =>
        match expect Bytes.colon (dropGap r) with
        | .error f => .error f
        | .ok r =>
          match unit r with
          | .error f => .error f
          | .ok r =>
            match expect 125 (dropGap r) with
            | .error f => .error f
            | .ok r => .ok (v, r)
    else .error .malformed

/-- A member of a record: its name, and how its value is read into the record. -/
structure RecordField (σ : Type) where
  name : Bytes
  read : σ → Bytes → Result σ

/-- A field that is set to the value read. -/
def RecordField.set {σ α : Type} (name : String) (read : Bytes → Result α) (put : σ → α → σ) :
    RecordField σ :=
  ⟨Bytes.ascii name, fun s bs => (read bs).map fun (v, r) => (put s v, r)⟩

/-- A record as it fills up, with the names that were met. -/
structure Filling (σ : Type) where
  seen : List Bytes
  record : σ

/-- One member, from behind its opening quote. An unknown one may take `fuel` steps to pass over. -/
def member {σ : Type} (fields : List (RecordField σ)) (fuel : Nat) (s : Filling σ) (bs : Bytes) :
    Result (Filling σ) :=
  match string bs with
  | .error f => .error f
  | .ok (name, r) =>
    match fields.find? fun field => field.name == name with
    | some field =>
      if name ∈ s.seen then .error .unfit
      else
        match expect Bytes.colon (dropGap r) with
        | .error f => .error f
        | .ok r => (field.read s.record r).map fun (v, r) => (⟨name :: s.seen, v⟩, r)
    | none =>
      match expect Bytes.colon (dropGap r) with
      | .error f => .error f
      | .ok r => (skipFrom fuel [] r).map fun r => (s, r)

/-- The members from one on, up to the closing bracket. Every member passes over at least one byte,
so the length of the text bounds their number, and with it the steps inside each of them. -/
def membersInto {σ : Type} (fields : List (RecordField σ)) : Nat → Filling σ → Bytes → Result σ
  | 0, _, _ => .error .endOfInput
  | fuel + 1, s, bs =>
    match dropGap bs with
    | [] => .error .endOfInput
    | q :: r =>
      if q ≠ 34 then .error .malformed
      else
        match member fields fuel s r with
        | .error f => .error f
        | .ok (s, r) =>
          match dropGap r with
          | [] => .error .endOfInput
          | b :: r =>
            if b = 125 then .ok (s.record, r)
            else if b = comma then membersInto fields fuel s r
            else .error .malformed

/-- The values of the members after the first one, each behind a comma. -/
def laterItemsInto {σ : Type} : List (RecordField σ) → σ → Bytes → Result σ
  | [], s, bs =>
    match dropGap bs with
    | [] => .error .endOfInput
    | b :: r => if b = 93 then .ok (s, r) else .error .malformed
  | field :: fields, s, bs =>
    match dropGap bs with
    | [] => .error .endOfInput
    | b :: r =>
      if b = 93 then .ok (s, r)
      else if b = comma then
        match dropGap r with
        | [] => .error .endOfInput
        | c :: t =>
          if c = 93 then .error .malformed
          else
            match field.read s (c :: t) with
            | .error f => .error f
            | .ok (s, r) => laterItemsInto fields s r
      else .error .malformed

/-- The values of the members in their fixed order, behind the opening bracket. -/
def itemsInto {σ : Type} (fields : List (RecordField σ)) (s : σ) (bs : Bytes) : Result σ :=
  match dropGap bs with
  | [] => .error .endOfInput
  | b :: r =>
    if b = 93 then .ok (s, r)
    else
      match fields with
      | [] => .error .malformed
      | field :: fields =>
        match field.read s (b :: r) with
        | .error f => .error f
        | .ok (s, r) => laterItemsInto fields s r

/-- A record that starts as `s`. -/
def record {σ : Type} (fields : List (RecordField σ)) (s : σ) (bs : Bytes) : Result σ :=
  let bs := dropGap bs
  match bs with
  | [] => .error .endOfInput
  | b :: r =>
    if b = 91 then itemsInto fields s r
    else if b = 123 then
      match dropGap r with
      | [] => .error .endOfInput
      | c :: t =>
        if c = 125 then .ok (s, t) else membersInto fields (r.length + 1) ⟨[], s⟩ r
    else .error (refuse bs)

end Json.Scan

end HttpServer
