import HttpServer.Json.Value

/-!
# Reading JSON

Reading goes from left to right and stops at the first thing that is wrong, so a document with
several faults has one answer. There are three kinds of fault: the text ends too early, the text is
not JSON, or the value is of a kind that was not asked for.

Every function here takes the text that is left and gives back what follows the piece that it read.
`value` reads any document into a tree and bounds the nesting of lists and objects. `skipFrom` passes
over a value without looking at what it says: there the nesting is free, a number may be too large
for a double, and the code units of escapes need not make up characters.
-/

namespace HttpServer

namespace Json.Scan

/-- What is wrong with a text. -/
inductive Fault where
  /-- The text ends inside a value. -/
  | endOfInput
  /-- The text is not JSON, or a number or the nesting is beyond what can be held. -/
  | malformed
  /-- The value is not of the kind asked for, or out of its range. -/
  | unfit
deriving DecidableEq, Repr

/-- What a piece of text reads as, and the text behind it. -/
abbrev Result (α : Type) := Except Fault (α × Bytes)

/-- The comma between items. -/
def comma : UInt8 := 44

/-- The blanks between tokens. -/
def isGap (b : UInt8) : Bool :=
  b == 32 || b == 9 || b == 10 || b == 13

/-- The text from the next token on. -/
def dropGap (bs : Bytes) : Bytes :=
  bs.dropWhile isGap

/-- Passes over the letters of a literal, one by one. -/
def literal : Bytes → Bytes → Except Fault Bytes
  | [], bs => .ok bs
  | _ :: _, [] => .error .endOfInput
  | c :: cs, b :: bs => if b = c then literal cs bs else .error .malformed

/-- The largest number of 64 bits. -/
def maxWord : Nat := 18446744073709551615

/-- The value of digits behind those of value `acc`, as long as it is at most `bound`, and the digits
from the first that makes it larger on. Digits beyond the bound are not counted, so the value stays
small however many there are. -/
def takeUpTo (bound acc : Nat) : Bytes → Nat × Bytes
  | [] => (acc, [])
  | d :: r =>
    let next := 10 * acc + Bytes.digitValue d
    if bound < next then (acc, d :: r) else takeUpTo bound next r

theorem le_foldl_digits (ds : Bytes) (n : Nat) :
    n ≤ ds.foldl (fun n d => 10 * n + Bytes.digitValue d) n := by
  induction ds generalizing n with
  | nil => exact Nat.le_refl n
  | cons d r ih =>
    have := ih (10 * n + Bytes.digitValue d)
    rw [List.foldl_cons]
    omega

/-- No digit is left exactly if the number that all of them stand for is within the bound. -/
theorem takeUpTo_eq_nil_iff {bound acc n : Nat} (ds : Bytes) (h : acc ≤ bound) :
    takeUpTo bound acc ds = (n, []) ↔
      ds.foldl (fun n d => 10 * n + Bytes.digitValue d) acc = n ∧ n ≤ bound := by
  induction ds generalizing acc with
  | nil =>
    simp only [takeUpTo, Prod.mk.injEq, and_true, List.foldl_nil]
    omega
  | cons d r ih =>
    rw [List.foldl_cons, takeUpTo]
    split
    · have := le_foldl_digits r (10 * acc + Bytes.digitValue d)
      simp only [Prod.mk.injEq, reduceCtorEq, and_false, false_iff, not_and]
      omega
    · exact ih (by omega)

/-- Digits at the head of a text, and the rest. -/
def spanDigits (bs : Bytes) : Bytes × Bytes :=
  (bs.takeWhile Bytes.isDigit, bs.dropWhile Bytes.isDigit)

/-- A numeral as it was written: sign, leading digits and power of ten. -/
def float (negative : Bool) (digits : Nat) (power : Int) (rest : Bytes) :
    Result Number :=
  match Binary64.scaled? negative digits power with
  | some x => .ok (.float x, rest)
  | none => .error .malformed

/-- The greatest exponent that is counted; a larger one is as good as infinite. -/
def greatestExponent : Nat := 2147483647

/-- The exponent of a number, behind its `e`. -/
def exponent (negative : Bool) (digits : Nat) (power : Int) (bs : Bytes) :
    Result Number :=
  let (down, r) : Bool × Bytes :=
    match bs with
    | 43 :: r => (false, r)
    | 45 :: r => (true, r)
    | r => (false, r)
  match r with
  | [] => .error .endOfInput
  | d :: _ =>
    if Bytes.isDigit d then
      let (ds, rest) := spanDigits r
      match takeUpTo greatestExponent 0 ds with
      | (e, []) => float negative digits (if down then power - e else power + e) rest
      | (_, _ :: _) =>
        if digits ≠ 0 ∧ !down then .error .malformed
        else .ok (.float { Binary64.zero with negative := negative }, rest)
    else .error .malformed

/-- What follows the digits of a number with a fraction or a large whole part: an exponent or
nothing. -/
def exponentOrEnd (negative : Bool) (digits : Nat) (power : Int) (bs : Bytes) :
    Result Number :=
  match bs with
  | 101 :: r => exponent negative digits power r
  | 69 :: r => exponent negative digits power r
  | r => float negative digits power r

/-- The fraction of a number, behind its point. -/
def fraction (negative : Bool) (digits : Nat) (power : Int) (bs : Bytes) :
    Result Number :=
  let (ds, rest) := spanDigits bs
  match ds with
  | [] => if rest = [] then .error .endOfInput else .error .malformed
  | _ :: _ =>
    let (total, dropped) := takeUpTo maxWord digits ds
    exponentOrEnd negative total (power - (ds.length - dropped.length : Nat)) rest

/-- The greatest magnitude of a negative number of 64 bits. -/
def greatestDebt : Nat := 9223372036854775808

/-- The value of a number without fraction and exponent. Minus zero and what does not fit in 64 bits
are doubles. -/
def wholeNumber (negative : Bool) (digits : Nat) (rest : Bytes) : Result Number :=
  if negative then
    if digits = 0 ∨ greatestDebt < digits then float true digits 0 rest
    else .ok (.whole (-(digits : Int)), rest)
  else .ok (.whole digits, rest)

/-- A number, behind its sign. -/
def magnitude (negative : Bool) (bs : Bytes) : Result Number :=
  match bs with
  | [] => .error .endOfInput
  | b :: _ =>
    if !Bytes.isDigit b then .error .malformed
    else
      let (ds, rest) := spanDigits bs
      if b = 48 ∧ ds.length ≠ 1 then .error .malformed
      else
        let (digits, dropped) := takeUpTo maxWord 0 ds
        match rest with
        | 46 :: r => fraction negative digits dropped.length r
        | 101 :: r => exponent negative digits dropped.length r
        | 69 :: r => exponent negative digits dropped.length r
        | r =>
          if dropped = [] then wholeNumber negative digits r
          else float negative digits dropped.length r

/-- A number. -/
def number (bs : Bytes) : Result Number :=
  match bs with
  | 45 :: r => magnitude true r
  | r => magnitude false r

/-- The value of a digit in base sixteen. -/
def hexValue? (b : UInt8) : Option Nat :=
  if Bytes.isDigit b then some (b.toNat - 48)
  else if 97 ≤ b ∧ b ≤ 102 then some (b.toNat - 87)
  else if 65 ≤ b ∧ b ≤ 70 then some (b.toNat - 55)
  else none

/-- Four digits in base sixteen. -/
def hex4 (bs : Bytes) : Result Nat :=
  match bs with
  | a :: b :: c :: d :: r =>
    match hexValue? a, hexValue? b, hexValue? c, hexValue? d with
    | some a, some b, some c, some d => .ok (((a * 16 + b) * 16 + c) * 16 + d, r)
    | _, _, _, _ => .error .malformed
  | _ => .error .endOfInput

theorem hex4_length {bs r : Bytes} {n : Nat} (h : hex4 bs = .ok (n, r)) :
    r.length < bs.length := by
  unfold hex4 at h
  split at h
  · split at h
    · simp only [Except.ok.injEq, Prod.mk.injEq] at h
      obtain ⟨-, rfl⟩ := h
      simp only [List.length_cons]
      omega
    · simp at h
  · simp at h

/-- One byte that has to be there. -/
def expect (b : UInt8) (bs : Bytes) : Except Fault Bytes :=
  match bs with
  | [] => .error .endOfInput
  | c :: r => if c = b then .ok r else .error .malformed

theorem expect_length {b : UInt8} {bs r : Bytes} (h : expect b bs = .ok r) :
    r.length < bs.length := by
  unfold expect at h
  split at h
  · simp at h
  · split at h
    · simp only [Except.ok.injEq] at h
      subst h
      simp
    · simp at h

/-- The first code unit of a pair. -/
def isHigh (n : Nat) : Bool := 0xD800 ≤ n && n ≤ 0xDBFF

/-- The second code unit of a pair. -/
def isLow (n : Nat) : Bool := 0xDC00 ≤ n && n ≤ 0xDFFF

/-- The character of an escape by number, behind its `u`: one code unit, or a pair of them. -/
def codePoint (bs : Bytes) : Result Char :=
  match hex4 bs with
  | .error e => .error e
  | .ok (n, r) =>
    if isLow n then .error .malformed
    else if isHigh n then
      match expect 92 r with
      | .error e => .error e
      | .ok r =>
        match expect 117 r with
        | .error e => .error e
        | .ok r =>
          match hex4 r with
          | .error e => .error e
          | .ok (m, r) =>
            if isLow m then .ok (Char.ofNat (0x10000 + (n - 0xD800) * 1024 + (m - 0xDC00)), r)
            else .error .malformed
    else .ok (Char.ofNat n, r)

theorem codePoint_length {bs r : Bytes} {c : Char} (h : codePoint bs = .ok (c, r)) :
    r.length < bs.length := by
  unfold codePoint at h
  split at h
  · simp at h
  · rename_i n r₁ h₁
    have l₁ := hex4_length h₁
    split at h
    · simp at h
    · split at h
      · split at h
        · simp at h
        · rename_i r₂ h₂
          have l₂ := expect_length h₂
          split at h
          · simp at h
          · rename_i r₃ h₃
            have l₃ := expect_length h₃
            split at h
            · simp at h
            · rename_i m r₄ h₄
              have l₄ := hex4_length h₄
              split at h
              · simp only [Except.ok.injEq, Prod.mk.injEq] at h
                obtain ⟨-, rfl⟩ := h
                omega
              · simp at h
      · simp only [Except.ok.injEq, Prod.mk.injEq] at h
        obtain ⟨-, rfl⟩ := h
        exact l₁

/-- What an escape by letter stands for. -/
def escaped? (b : UInt8) : Option UInt8 :=
  if b = 34 ∨ b = 92 ∨ b = 47 then some b
  else if b = 98 then some 8
  else if b = 102 then some 12
  else if b = 110 then some 10
  else if b = 114 then some 13
  else if b = 116 then some 9
  else none

/-- The inside of a string up to its closing quote, the bytes so far latest first. -/
def stringFrom (acc : Bytes) (bs : Bytes) : Result Bytes :=
  match bs with
  | [] => .error .endOfInput
  | b :: r =>
    if b = 34 then .ok (acc.reverse, r)
    else if b = 92 then
      match r with
      | [] => .error .endOfInput
      | e :: r =>
        if e = 117 then
          match h : codePoint r with
          | .error f => .error f
          | .ok (c, t) =>
            have := codePoint_length h
            stringFrom ((String.utf8EncodeChar c).reverse ++ acc) t
        else
          match escaped? e with
          | some c => stringFrom (c :: acc) r
          | none => .error .malformed
    else if b < 32 then .error .malformed
    else stringFrom (b :: acc) r
termination_by bs.length
decreasing_by
  all_goals simp only [List.length_cons]; omega

/-- A string, behind its opening quote. What it holds has to be UTF-8. -/
def string (bs : Bytes) : Result Bytes :=
  match stringFrom [] bs with
  | .error f => .error f
  | .ok (s, r) => if Utf8.isValid s then .ok (s, r) else .error .malformed

/-- Passes over a string, behind its opening quote. -/
def skipString (bs : Bytes) : Except Fault Bytes :=
  match bs with
  | [] => .error .endOfInput
  | b :: r =>
    if b = 34 then .ok r
    else if b = 92 then
      match r with
      | [] => .error .endOfInput
      | e :: r =>
        if e = 117 then
          match h : hex4 r with
          | .error f => .error f
          | .ok (_, t) =>
            have := hex4_length h
            skipString t
        else
          match escaped? e with
          | some _ => skipString r
          | none => .error .malformed
    else if b < 32 then .error .malformed
    else skipString r
termination_by bs.length
decreasing_by
  all_goals simp only [List.length_cons]; omega

/-- Passes over an exponent, behind its `e`. -/
def skipExponent (bs : Bytes) : Except Fault Bytes :=
  let r : Bytes :=
    match bs with
    | 43 :: r => r
    | 45 :: r => r
    | r => r
  match spanDigits r with
  | ([], _) => .error .malformed
  | (_, rest) => .ok rest

/-- Passes over what follows the whole part or the fraction of a number. -/
def skipExponentOrEnd (bs : Bytes) : Except Fault Bytes :=
  match bs with
  | 101 :: r => skipExponent r
  | 69 :: r => skipExponent r
  | r => .ok r

/-- Passes over a number, behind its sign. -/
def skipMagnitude (bs : Bytes) : Except Fault Bytes :=
  match spanDigits bs with
  | ([], _) => .error .malformed
  | (d :: ds, rest) =>
    if d = 48 ∧ ds ≠ [] then .error .malformed
    else
      match rest with
      | 46 :: r =>
        match spanDigits r with
        | ([], _) => .error .malformed
        | (_, rest) => skipExponentOrEnd rest
      | r => skipExponentOrEnd r

/-- Passes over a value that is neither a list nor an object. -/
def skipScalar (bs : Bytes) : Except Fault Bytes :=
  match bs with
  | [] => .error .endOfInput
  | b :: r =>
    if b = 110 then literal (Bytes.ascii "ull") r
    else if b = 116 then literal (Bytes.ascii "rue") r
    else if b = 102 then literal (Bytes.ascii "alse") r
    else if b = 34 then skipString r
    else if b = 45 then skipMagnitude r
    else if Bytes.isDigit b then skipMagnitude (b :: r)
    else .error .malformed

/-- What encloses a value. -/
inductive Frame where
  | list
  | object
deriving DecidableEq, Repr

namespace Frame

/-- The bracket that ends it. -/
def close : Frame → UInt8
  | list => 93
  | object => 125

end Frame

/-- Passes over the name of a member and its colon. -/
def skipName (bs : Bytes) : Except Fault Bytes :=
  match dropGap bs with
  | [] => .error .endOfInput
  | b :: r =>
    if b = 34 then
      match skipString r with
      | .error f => .error f
      | .ok r => expect Bytes.colon (dropGap r)
    else .error .malformed

/-- Passes over a value inside `open_`, the brackets still open, innermost first. Every step passes
over at least one byte, so the steps are never too few where they are more than the bytes. -/
def skipFrom : Nat → List Frame → Bytes → Except Fault Bytes
  | 0, _, _ => .error .endOfInput
  | fuel + 1, open_, bs =>
    match dropGap bs with
    | [] => .error .endOfInput
    | b :: r =>
      if b = 91 then
        match dropGap r with
        | [] => .error .endOfInput
        | c :: t => if c = 93 then skipAfter fuel open_ t else skipFrom fuel (.list :: open_) r
      else if b = 123 then
        match dropGap r with
        | [] => .error .endOfInput
        | c :: t =>
          if c = 125 then skipAfter fuel open_ t
          else
            match skipName r with
            | .error f => .error f
            | .ok r => skipFrom fuel (.object :: open_) r
      else
        match skipScalar (b :: r) with
        | .error f => .error f
        | .ok r => skipAfter fuel open_ r
where
  /-- Passes over what follows a value inside `open_`. -/
  skipAfter : Nat → List Frame → Bytes → Except Fault Bytes
    | _, [], bs => .ok bs
    | 0, _, _ => .error .endOfInput
    | fuel + 1, frame :: open_, bs =>
      match dropGap bs with
      | [] => .error .endOfInput
      | b :: r =>
        if b = comma then
          match frame with
          | .list => skipFrom fuel (frame :: open_) r
          | .object =>
            match skipName r with
            | .error f => .error f
            | .ok r => skipFrom fuel (frame :: open_) r
        else if b = frame.close then skipAfter fuel open_ r
        else .error .malformed

/-- The number of lists and objects that may stand inside each other. -/
def greatestDepth : Nat := 127

mutual

/-- A value inside which at most `depth` lists and objects may be nested. Every step passes over at
least one byte, so the length of the text bounds the number of steps. -/
def valueFrom : Nat → Nat → Bytes → Result Json
  | 0, _, _ => .error .endOfInput
  | fuel + 1, depth, bs =>
    match dropGap bs with
    | [] => .error .endOfInput
    | b :: r =>
      if b = 110 then (literal (Bytes.ascii "ull") r).map fun r => (.null, r)
      else if b = 116 then (literal (Bytes.ascii "rue") r).map fun r => (.bool true, r)
      else if b = 102 then (literal (Bytes.ascii "alse") r).map fun r => (.bool false, r)
      else if b = 34 then (string r).map fun (s, r) => (.text s, r)
      else if b = 91 then
        match depth with
        | 0 => .error .malformed
        | depth + 1 =>
          match dropGap r with
          | [] => .error .endOfInput
          | c :: t => if c = 93 then .ok (.list [], t) else itemsFrom fuel depth [] r
      else if b = 123 then
        match depth with
        | 0 => .error .malformed
        | depth + 1 =>
          match dropGap r with
          | [] => .error .endOfInput
          | c :: t => if c = 125 then .ok (.object [], t) else membersFrom fuel depth [] r
      else if b = 45 ∨ Bytes.isDigit b then (number (b :: r)).map fun (n, r) => (.number n, r)
      else .error .malformed

/-- The rest of a list from an item on, the items so far latest first. -/
def itemsFrom : Nat → Nat → List Json → Bytes → Result Json
  | 0, _, _, _ => .error .endOfInput
  | fuel + 1, depth, acc, bs =>
    match valueFrom fuel depth bs with
    | .error f => .error f
    | .ok (v, r) =>
      match dropGap r with
      | [] => .error .endOfInput
      | b :: r =>
        if b = 93 then .ok (.list (v :: acc).reverse, r)
        else if b = comma then itemsFrom fuel depth (v :: acc) r
        else .error .malformed

/-- The rest of an object from a member on, the members so far in the order of their names. -/
def membersFrom : Nat → Nat → List (Bytes × Json) → Bytes → Result Json
  | 0, _, _, _ => .error .endOfInput
  | fuel + 1, depth, acc, bs =>
    match dropGap bs with
    | [] => .error .endOfInput
    | q :: r =>
      if q ≠ 34 then .error .malformed
      else
        match string r with
        | .error f => .error f
        | .ok (k, r) =>
          match expect Bytes.colon (dropGap r) with
          | .error f => .error f
          | .ok r =>
            match valueFrom fuel depth r with
            | .error f => .error f
            | .ok (v, r) =>
              match dropGap r with
              | [] => .error .endOfInput
              | b :: r =>
                if b = 125 then .ok (.object (Table.insert k v acc), r)
                else if b = comma then membersFrom fuel depth (Table.insert k v acc) r
                else .error .malformed

end

/-- A value. -/
def value (bs : Bytes) : Result Json :=
  valueFrom (2 * bs.length + 2) greatestDepth bs

/-- Nothing but blanks may follow a document. -/
def complete {α : Type} (r : Result α) : Except Fault α :=
  match r with
  | .error f => .error f
  | .ok (v, rest) => if dropGap rest = [] then .ok v else .error .malformed

end Json.Scan

/-- The tree of a document. -/
def Json.parse (bs : Bytes) : Except Json.Scan.Fault Json :=
  Json.Scan.complete (Json.Scan.value bs)

end HttpServer
