import Cartridge.Proofs.Yaz0.Decoding

/-!
# Decompression by offsets

The same reading with its offsets written out: every byte is looked up by its
index, in the file or in the content made so far, and every difference is taken of
offsets. A look-up outside the bytes and a difference below zero have no result
here, so that the whole has a result only where all of them are in order. It always
has one, and the one that decompression gives.
-/
namespace Cartridge.Yaz0.Offsets

/-- The difference of two numbers, which must not be negative. -/
def minus? (a b : ℕ) : Option ℕ := if b ≤ a then some (a - b) else none

/-- Appends `n` bytes, which are copies of those from `start` on. -/
def copyFrom? (start : ℕ) : ℕ → Array UInt8 → Option (Array UInt8)
  | 0, out => some out
  | n + 1, out => do
    let byte ← out[start]?
    copyFrom? (start + 1) n (out.push byte)

/-- The length of the reference at an offset, whose first byte is `b0`, and the
number of bytes that it has behind its second. -/
def lengthAt (file : Bytes) (offset : ℕ) (b0 : UInt8) : Except Error (ℕ × ℕ) :=
  if b0.toNat / 16 = 0 then
    match file[offset + 2]? with
    | none => .error (.truncated file.length)
    | some b2 => .ok (b2.toNat + 0x12, 1)
  else .ok (b0.toNat / 16 + 2, 0)

/-- Repeats `length` bytes of the content, or as many as `size` leaves room for. -/
def repeat? (size distance length : ℕ) (out : Array UInt8) :
    Option (Except Error (Array UInt8)) :=
  if out.size < distance then some (.error (.badReference distance out.size))
  else do
    let room ← minus? size out.size
    let start ← minus? out.size distance
    let out ← copyFrom? start (min length room) out
    some (.ok out)

/-- Reads tokens from an offset on. -/
def readTokens? (file : Bytes) (size : ℕ) (flags : List Bool) (offset : ℕ)
    (out : Array UInt8) : Option (Except Error (Array UInt8)) :=
  if file.length ≤ offset ∨ size ≤ out.size then some (.ok out)
  else
    match flags with
    | [] => do
      let group ← file[offset]?
      readTokens? file size (flagBits group) (offset + 1) out
    | true :: flags => do
      let byte ← file[offset]?
      readTokens? file size flags (offset + 1) (out.push byte)
    | false :: flags =>
      if file.length ≤ offset + 1 then some (.error (.truncated file.length))
      else do
        let b0 ← file[offset]?
        let b1 ← file[offset + 1]?
        match lengthAt file offset b0 with
        | .error e => some (.error e)
        | .ok (length, more) =>
          match ← repeat? size (distanceOf b0 b1) length out with
          | .error e => some (.error e)
          | .ok out => readTokens? file size flags (offset + 2 + more) out
termination_by file.length - offset

def declaredSize? (file : Bytes) : Option (Except Error ℕ) :=
  if file.length < headerSize then some (.error (.truncated file.length))
  else do
    let magic ← file.slice? 0 4
    if magic ∈ magics then
      match file.u32? 4 with
      | some size => some (.ok size)
      | none => some (.error (.truncated file.length))
    else some (.error (.badMagic magic))

def decompress? (file : Bytes) : Option (Except Error Bytes) := do
  match ← declaredSize? file with
  | .error e => some (.error e)
  | .ok size =>
    match ← readTokens? file size [] headerSize #[] with
    | .error e => some (.error e)
    | .ok out =>
      if out.size = size then some (.ok out.toList)
      else some (.error (.sizeMismatch size out.size))

lemma minus?_of_le {a b : ℕ} (h : b ≤ a) : minus? a b = some (a - b) := if_pos h

/-- A copy reads bytes of the content only, those of its own included. -/
theorem copyFrom?_eq {distance : ℕ} (hpos : 0 < distance) (n : ℕ) {out : Array UInt8}
    (h : distance ≤ out.size) :
    copyFrom? (out.size - distance) n out = some (copyBack distance n out) := by
  induction n generalizing out with
  | zero => rfl
  | succ n ih =>
    have hlt : out.size - distance < out.size := by omega
    have hbyte : out[out.size - distance]? = some (out.getD (out.size - distance) 0) := by
      simp [Array.getD, hlt]
    have hnext (byte : UInt8) : out.size - distance + 1 = (out.push byte).size - distance := by
      rw [Array.size_push]
      omega
    rw [copyFrom?, hbyte, Option.bind_eq_bind, Option.bind_some, hnext, ih, copyBack]
    rw [Array.size_push]
    omega

theorem repeat?_eq {size : ℕ} {distance : ℕ} (hpos : 0 < distance) (length : ℕ)
    {out : Array UInt8} (h : out.size < size) :
    repeat? size distance length out = some (repeatBack size distance length out) := by
  unfold repeat? repeatBack
  split
  · rfl
  · rw [minus?_of_le (Nat.le_of_lt h), minus?_of_le (by omega)]
    simp only [Option.bind_eq_bind, Option.bind_some]
    rw [copyFrom?_eq hpos _ (by omega), Option.bind_some]

section Reference

variable {total size : ℕ} {flags : List Bool} {source : Bytes} {out : Array UInt8} {b0 b1 : UInt8}

/-- Reading goes on with the content that a reference of two bytes makes. -/
lemma readTokens_twoBytes (h : out.size < size) (hb : b0.toNat / 16 ≠ 0) :
    readTokens total size (false :: flags) (b0 :: b1 :: source) out =
      (repeatBack size (distanceOf b0 b1) (b0.toNat / 16 + 2) out).bind
        (readTokens total size flags source) := by
  cases source <;> simp only [readTokens, if_neg (Nat.not_le_of_lt h), if_neg hb] <;>
    cases repeatBack size (distanceOf b0 b1) (b0.toNat / 16 + 2) out <;> rfl

/-- Reading goes on with the content that a reference of three bytes makes. -/
lemma readTokens_threeBytes (h : out.size < size) (hb : b0.toNat / 16 = 0) (b2 : UInt8) :
    readTokens total size (false :: flags) (b0 :: b1 :: b2 :: source) out =
      (repeatBack size (distanceOf b0 b1) (b2.toNat + 0x12) out).bind
        (readTokens total size flags source) := by
  simp only [readTokens, if_neg (Nat.not_le_of_lt h), if_pos hb]
  cases repeatBack size (distanceOf b0 b1) (b2.toNat + 0x12) out <;> rfl

end Reference

/-- The step at a reference, when the steps behind it are equal. -/
lemma readTokens?_reference {file : Bytes} {size offset : ℕ} {flags : List Bool}
    {out : Array UInt8} (hlt : offset < file.length) (hroom : out.size < size)
    (next : ∀ offset' out', offset < offset' → readTokens? file size flags offset' out' =
      some (readTokens file.length size flags (file.drop offset') out')) :
    readTokens? file size (false :: flags) offset out =
      some (readTokens file.length size (false :: flags) (file.drop offset) out) := by
  have hfirst : file[offset]? = some file[offset] := List.getElem?_eq_getElem hlt
  have hend : ¬ (file.length ≤ offset ∨ size ≤ out.size) := by omega
  rw [List.drop_eq_getElem_cons hlt, readTokens?.eq_def, if_neg hend]
  have hnot : ¬ size ≤ out.size := Nat.not_le_of_lt hroom
  by_cases hcut : file.length ≤ offset + 1
  · rw [List.drop_of_length_le hcut]
    simp only [readTokens, if_neg hnot, if_pos hcut]
  · have hlt' : offset + 1 < file.length := Nat.lt_of_not_le hcut
    have hsecond : file[offset + 1]? = some file[offset + 1] := List.getElem?_eq_getElem hlt'
    have hthird : file[offset + 2]? = (file.drop (offset + 2)).head? := List.head?_drop.symm
    rw [List.drop_eq_getElem_cons hlt']
    simp only [if_neg hcut, hfirst, hsecond, Option.bind_eq_bind, Option.bind_some]
    generalize file[offset] = b0
    generalize file[offset + 1] = b1
    by_cases hlong : b0.toNat / 16 = 0
    · rw [lengthAt, if_pos hlong, hthird]
      cases hdrop : file.drop (offset + 1 + 1) with
      | nil => simp only [readTokens, if_neg hnot, if_pos hlong, List.head?_nil]
      | cons b2 rest =>
        have hrest : file.drop (offset + 2 + 1) = rest := by
          rw [← List.drop_drop, hdrop, List.drop_one, List.tail_cons]
        simp only [List.head?_cons, repeat?_eq (distanceOf_pos b0 b1) _ hroom,
          Option.bind_some]
        rw [readTokens_threeBytes hroom hlong, ← hrest]
        cases repeatBack size (distanceOf b0 b1) (b2.toNat + 0x12) out with
        | error e => rfl
        | ok out => exact next (offset + 2 + 1) out (by omega)
    · rw [lengthAt, if_neg hlong, readTokens_twoBytes hroom hlong]
      simp only [repeat?_eq (distanceOf_pos b0 b1) _ hroom, Option.bind_some]
      cases repeatBack size (distanceOf b0 b1) (b0.toNat / 16 + 2) out with
      | error e => rfl
      | ok out => exact next (offset + 2) out (by omega)

/-- Reading by offsets always has a result. -/
theorem readTokens?_eq (file : Bytes) (size : ℕ) (flags : List Bool) (offset : ℕ)
    (out : Array UInt8) :
    readTokens? file size flags offset out =
      some (readTokens file.length size flags (file.drop offset) out) := by
  by_cases hend : file.length ≤ offset ∨ size ≤ out.size
  · rw [readTokens?.eq_def, if_pos hend]
    cases hend with
    | inl hend =>
      rw [List.drop_of_length_le hend]
      simp only [readTokens]
    | inr hfull => rw [readTokens_of_size_le hfull]
  · have hlt : offset < file.length := by omega
    have hroom : out.size < size := by omega
    have hfirst : file[offset]? = some file[offset] := List.getElem?_eq_getElem hlt
    cases flags with
    | nil =>
      rw [List.drop_eq_getElem_cons hlt, readTokens?.eq_def, if_neg hend]
      simp only [hfirst, Option.bind_eq_bind, Option.bind_some]
      rw [readTokens_group hroom]
      exact readTokens?_eq file size _ (offset + 1) out
    | cons flag flags =>
      cases flag with
      | true =>
        rw [List.drop_eq_getElem_cons hlt, readTokens?.eq_def, if_neg hend]
        simp only [hfirst, Option.bind_eq_bind, Option.bind_some]
        rw [readTokens_literal hroom]
        exact readTokens?_eq file size flags (offset + 1) _
      | false =>
        refine readTokens?_reference hlt hroom fun offset' out' hle => ?_
        exact readTokens?_eq file size flags offset' out'
termination_by file.length - offset

lemma declaredSize?_eq (file : Bytes) : declaredSize? file = some (declaredSize file) := by
  by_cases hshort : file.length < headerSize
  · simp only [declaredSize?, declaredSize, if_pos hshort]
  · have hlength : 16 ≤ file.length := Nat.le_of_not_lt hshort
    have hmagic : file.slice? 0 4 = some (file.take 4) := by
      rw [Bytes.slice?_eq_some]
      refine ⟨by rw [List.drop_zero], ?_⟩
      rw [List.length_take]
      omega
    have hsize : file.u32? 4 = some (Bytes.toNat (file.extract 4 8)) := by
      have hslice : file.slice? 4 4 = some (file.extract 4 8) := by
        rw [Bytes.slice?_eq_some, List.extract_eq_take_drop]
        refine ⟨rfl, ?_⟩
        rw [List.length_take, List.length_drop]
        omega
      rw [Bytes.u32?, hslice, Option.map_some]
    simp only [declaredSize?, declaredSize, if_neg hshort, hmagic, hsize, isCompressed,
      Option.bind_eq_bind, Option.bind_some, List.contains_iff_mem]
    split <;> rfl

/-- No byte is looked up outside the file or the content, and no difference is
negative: decompression by offsets always has a result, which is the known one. -/
theorem decompress?_eq (file : Bytes) : decompress? file = some (decompress file) := by
  simp only [decompress?, declaredSize?_eq, Option.bind_eq_bind, Option.bind_some, decompress]
  cases declaredSize file with
  | error e => rfl
  | ok size =>
    simp only [readTokens?_eq, Option.bind_some, bind, Except.bind]
    cases readTokens file.length size [] (file.drop headerSize) #[] with
    | error e => rfl
    | ok out =>
      dsimp only
      split <;> rfl

end Cartridge.Yaz0.Offsets
