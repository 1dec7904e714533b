import HttpServer.Bytes

/-!
# Storage

Storage is a packed block of bytes that grows at its end, so adding a few bytes to many costs no more
than the few. The view is `bytes`: each operation is said by what it does to the list of bytes.
-/

namespace HttpServer

/-- A packed block of bytes. -/
abbrev Storage := ByteArray

namespace Storage

/-- The bytes of a block. -/
def bytes (s : Storage) : Bytes :=
  s.data.toList

/-- The block with more bytes at its end. -/
def extend (s : Storage) (bs : Bytes) : Storage :=
  bs.foldl ByteArray.push s

/-- The block without its first `n` bytes. -/
def dropFront (s : Storage) (n : Nat) : Storage :=
  s.extract n s.size

/-- The `n` bytes from `start` on, and `acc` behind them. -/
def window (s : Storage) (start : Nat) : Nat → Bytes → Bytes
  | 0, acc => acc
  | n + 1, acc => window s start n (s.get! (start + n) :: acc)

/-- A line break begins at one of the `n` positions from `start` on. -/
def hasBreak (s : Storage) (start : Nat) : Nat → Bool
  | 0 => false
  | n + 1 =>
    (s.get! start == Bytes.cr && decide (start + 1 < s.size) && s.get! (start + 1) == Bytes.lf) ||
      hasBreak s (start + 1) n

@[simp] theorem length_bytes (s : Storage) : s.bytes.length = s.size := by
  rw [bytes, Array.length_toList]
  rfl

@[simp] theorem bytes_extend (s : Storage) (bs : Bytes) : (s.extend bs).bytes = s.bytes ++ bs := by
  induction bs generalizing s with
  | nil => simp [extend]
  | cons b bs ih =>
    have hstep : s.extend (b :: bs) = extend (s.push b) bs := rfl
    have hpush : bytes (s.push b) = s.bytes ++ [b] := by simp [bytes]
    rw [hstep, ih, hpush, List.append_assoc, List.singleton_append]

@[simp] theorem bytes_dropFront (s : Storage) (n : Nat) :
    (s.dropFront n).bytes = s.bytes.drop n := by
  have h := s.length_bytes
  rw [bytes, dropFront, ByteArray.data_extract, Array.toList_extract, List.extract_eq_take_drop]
  exact List.take_of_length_le (by rw [List.length_drop]; exact Nat.le_of_eq (congrArg (· - n) h))

@[simp] theorem size_extend (s : Storage) (bs : Bytes) : (s.extend bs).size = s.size + bs.length := by
  rw [← length_bytes, bytes_extend, List.length_append, length_bytes]

theorem getElem?_bytes (s : Storage) (i : Nat) (h : i < s.size) :
    s.bytes[i]? = some (s.get! i) := by
  have hi : i < s.data.size := h
  rw [bytes, Array.getElem?_toList, Array.getElem?_eq_getElem hi]
  exact congrArg some (getElem!_pos s.data i hi).symm

theorem window_eq (s : Storage) (start n : Nat) (acc : Bytes) (h : start + n ≤ s.size) :
    s.window start n acc = (s.bytes.drop start).take n ++ acc := by
  induction n generalizing acc with
  | zero => simp [window]
  | succ n ih =>
    rw [window, ih _ (by omega), List.take_add_one, List.getElem?_drop,
      getElem?_bytes s _ (by omega), List.append_assoc]
    rfl

theorem hasBreak_eq (s : Storage) (start n : Nat) (h : start + n = s.size) :
    s.hasBreak start n = (Bytes.lineEnd? (s.bytes.drop start)).isSome := by
  induction n generalizing start with
  | zero =>
    rw [List.drop_of_length_le (by rw [length_bytes]; omega)]
    rfl
  | succ n ih =>
    have hs : s.bytes.drop start = s.get! start :: s.bytes.drop (start + 1) := by
      rw [List.drop_eq_getElem?_toList_append, getElem?_bytes s start (by omega)]
      rfl
    rw [hasBreak, ih (start + 1) (by omega), hs, Bytes.lineEnd?_cons, List.head?_drop]
    by_cases hn : start + 1 < s.size
    · rw [getElem?_bytes s _ hn]
      split <;> simp_all
    · rw [List.getElem?_eq_none (by rw [length_bytes]; omega)]
      simp [hn]

end Storage

end HttpServer
