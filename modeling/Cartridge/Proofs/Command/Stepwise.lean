import Cartridge.Proofs.Command.Machine

/-!
# Reading the parts of commands in machine arithmetic

A reading in machine arithmetic goes step by step in numbers that have a width, and it has no
result where one of its steps has none: where a difference is negative, where a word is moved by
as many places as it has bits or by more, where a number is greater than the one that it is to be
kept in, and where a bit reader has too few bits left. The parts of commands are read in such
steps from every word, with the same results as in exact numbers.
-/
namespace Cartridge

namespace BitReader

/-- Takes fields in turn, each into a number of its own size. A field must not be wider than the
number that takes it. -/
def takeInto? (reader : BitReader) : List (ℕ × ℕ) → Option (List ℕ × BitReader)
  | [] => some ([], reader)
  | (size, width) :: reads =>
    if width ≤ size then do
      let (value, reader) ← reader.take? width
      let (values, reader) ← reader.takeInto? reads
      some (value :: values, reader)
    else none

/-- Where every field is narrow enough, their sizes make no difference. -/
lemma takeInto?_eq_takeAll? {reads : List (ℕ × ℕ)} (h : ∀ r ∈ reads, r.2 ≤ r.1)
    (reader : BitReader) :
    reader.takeInto? reads = reader.takeAll? (reads.map Prod.snd) := by
  induction reads generalizing reader with
  | nil => rfl
  | cons r reads ih =>
    obtain ⟨size, width⟩ := r
    obtain ⟨hr, hreads⟩ := List.forall_mem_cons.mp h
    simp only [takeInto?, if_pos hr, List.map_cons, takeAll?, ih hreads]

/-- Fields of 56 bits together leave nothing. -/
lemma takeAll?_all {word : UInt64} {widths : List ℕ} (h : Word.total widths = 56) :
    (afterTopByte word).takeAll? widths = some (Word.slices word 56 widths, ⟨0, 0⟩) := by
  have hrest : ofWord word (56 - Word.total widths) = ⟨0, 0⟩ := by
    rw [h, ofWord, Word.field, Nat.mod_one]
  rw [takeAll?_afterTopByte word (Nat.le_of_eq h), hrest]

end BitReader

namespace Command

open Machine

abbrev Reading := ExceptT Fault Option

namespace Reading

/-- The result of a reader that does no arithmetic. -/
def given {α : Type} (x : Checked α) : Reading α := ExceptT.mk (some x)

/-- The reading has a result, and it is `x`. -/
def Gives {α : Type} (r : Reading α) (x : Checked α) : Prop := r.run = some x

namespace Gives

variable {α β : Type}

lemma ok {a : α} : Gives (pure a) (.ok a) := rfl

lemma error {fault : Fault} : Gives (throw fault : Reading α) (.error fault) := rfl

lemma given (x : Checked α) : Gives (Reading.given x) x := rfl

lemma last {o : Option α} {a : α} (h : o = some a) : Gives (liftM o) (.ok a) := by
  subst h
  rfl

lemma step {o : Option α} {a : α} (h : o = some a) {f : α → Reading β} {x : Checked β}
    (hf : Gives (f a) x) : Gives (do let a ← o; f a) x := by
  subst h
  exact hf

/-- What comes after a reading needs to have a result only where that reading succeeds. -/
lemma bind {r : Reading α} {x : Checked α} (h : Gives r x) {f : α → Reading β}
    {g : α → Checked β} (hf : ∀ a, x = .ok a → Gives (f a) (g a)) : Gives (r >>= f) (x >>= g) := by
  rw [Gives, ExceptT.run_bind, show r.run = some x from h]
  cases x with
  | ok a => exact hf a rfl
  | error fault => rfl

lemma map {r : Reading α} {x : Checked α} (h : Gives r x) (f : α → β) :
    Gives (do return f (← r)) (x.map f) := by
  have hmap : x.map f = x >>= fun a => .ok (f a) := by cases x <;> rfl
  rw [hmap]
  exact h.bind fun _ _ => ok

section

variable {p q : Prop} [Decidable p] [Decidable q] {r s : Reading α} {x y : Checked α}

lemma ite (h : p ↔ q) (hr : q → Gives r x) (hs : ¬ q → Gives s y) :
    Gives (if p then r else s) (if q then x else y) := by
  by_cases hq : q
  · rw [if_pos hq, if_pos (h.mpr hq)]
    exact hr hq
  · rw [if_neg hq, if_neg (mt h.mp hq)]
    exact hs hq

lemma iteNot (h : p ↔ ¬ q) (hr : ¬ q → Gives r y) (hs : q → Gives s x) :
    Gives (if p then r else s) (if q then x else y) := by
  rw [← ite_not q]
  exact ite h hr fun hq => hs (not_not.mp hq)

end

variable {word : UInt64} {shift width size : ℕ} {f : ℕ → Reading α} {x : Checked α}

/-- A reading that succeeds in any case. -/
lemma follow {r : Reading β} {b : β} (h : Gives r (.ok b)) {f : β → Reading α}
    (hf : Gives (f b) x) : Gives (r >>= f) x :=
  h.bind (g := fun _ => x) fun a ha => by cases ha; exact hf

/-- A field in its place, which is read by a shift and under a mask. -/
lemma field (h : shift < 64 ∧ width < 64) (hf : Gives (f (Word.field word shift width)) x) :
    Gives (do let n ← field? word shift width; f n) x :=
  step (field?_eq h.1 h.2) hf

lemma fieldInto (h : shift < 64 ∧ width < 64 ∧ width ≤ size)
    (hf : Gives (f (Word.field word shift width)) x) :
    Gives (do let n ← fieldInto? size word shift width; f n) x :=
  step (fieldInto?_eq h.1 h.2.1 h.2.2) hf

end Gives

variable {word : UInt64}

def address? (n : ℕ) : Reading Address := do
  let segment ← shiftRight? 32 n 24
  if 0x0F < segment then throw (.segment segment) else return ⟨n⟩

lemma gives_address {n : ℕ} : Gives (address? n) (readAddress n) := by
  refine .step (shiftRight?_of_lt (by decide)) ?_
  exact .iteNot Nat.not_le.symm (fun _ => .error) fun _ => .ok

def vertex? (doubled : ℕ) : Reading ℕ :=
  if doubled &&& 1 ≠ 0 then throw .oddVertex
  else if 31 < doubled / 2 then throw (.vertex (doubled / 2))
  else narrow? 8 (doubled / 2)

lemma gives_vertex {n : ℕ} : Gives (vertex? n) (readVertex n) := by
  rw [vertex?, Nat.and_one_is_mod]
  refine .ite .rfl (fun _ => .error) fun _ => ?_
  refine .iteNot Nat.not_le.symm (fun _ => .error) fun hle => ?_
  exact .last (narrow?_of_lt (by omega))

def triangle? (word : UInt64) (shift : ℕ) : Reading Triangle := do
  let v0 ← vertex? (← field? word (shift + 16) 8)
  let v1 ← vertex? (← field? word (shift + 8) 8)
  let v2 ← vertex? (← field? word shift 8)
  return ⟨v0, v1, v2⟩

lemma gives_triangle {shift : ℕ} (h : shift < 48) :
    Gives (triangle? word shift) (readTriangle word shift) := by
  refine .field (by omega) (gives_vertex.bind fun v0 _ => ?_)
  refine .field (by omega) (gives_vertex.bind fun v1 _ => ?_)
  exact .field (by omega) (gives_vertex.bind fun v2 _ => .ok)

def corner? (word : UInt64) (shift : ℕ) : Reading Corner := do
  let x ← field? word (shift + 12) 12
  let y ← field? word shift 12
  return ⟨.ofBits x, .ofBits y⟩

lemma gives_corner {shift : ℕ} (h : shift < 52) :
    Gives (corner? word shift) (.ok (readCorner word shift)) :=
  .field (by omega) (.field (by omega) .ok)

def tileRect? (ulFirst : Bool) (word : UInt64) : Reading TileRect := do
  let high ← corner? word 32
  let low ← corner? word 0
  let tile ← fieldInto? 8 word 24 3
  let (ul, lr) := if ulFirst then (high, low) else (low, high)
  given (checkCorners ul lr)
  return ⟨ul, lr, tile⟩

lemma gives_tileRect {ulFirst : Bool} :
    Gives (tileRect? ulFirst word) (readTileRect ulFirst word) := by
  refine .follow (gives_corner (by decide)) (.follow (gives_corner (by decide)) ?_)
  refine .fieldInto (by decide) ?_
  cases ulFirst with
  | true => exact (Gives.given _).bind fun _ _ => .ok
  | false => exact (Gives.given _).bind fun _ _ => .ok

def imageSource? (word : UInt64) : Reading ImageSource := do
  let format ← given (readFormat (← field? word 53 3))
  let size ← field? word 51 2
  let width ← add? 16 (← fieldInto? 16 word 32 12) 1
  let address ← address? (Word.low word)
  return ⟨format, .ofCode size, width, address⟩

lemma gives_imageSource : Gives (imageSource? word) (readImageSource word) := by
  have hwidth := Word.field_lt word 32 12
  refine .field (by decide) ((Gives.given _).bind fun format _ => ?_)
  refine .field (by decide) (.fieldInto (by decide) ?_)
  exact .step (add?_of_lt (by omega)) (gives_address.bind fun address _ => .ok)

lemma modeMask_lt {width shift len : ℕ} (h : shift + len ≤ width) :
    modeMask shift len < 2 ^ width := by
  have hpos : 0 < 2 ^ len := Nat.two_pow_pos len
  calc modeMask shift len < 2 ^ len * 2 ^ shift :=
        Nat.mul_lt_mul_of_pos_right (by omega) (Nat.two_pow_pos shift)
    _ = 2 ^ (shift + len) := by rw [Nat.pow_add, Nat.mul_comm]
    _ ≤ 2 ^ width := Nat.pow_le_pow_right (by decide) h

lemma testBit_modeMask (shift len i : ℕ) :
    (modeMask shift len).testBit i = decide (shift ≤ i ∧ i < shift + len) := by
  have hmask : modeMask shift len = FixedBits.mask ⟨shift, len, 0⟩ := by
    rw [modeMask, FixedBits.mask, Nat.shiftLeft_eq]
  rw [hmask, FixedBits.testBit_mask]
  rfl

/-- The bits of a number beside a field are those under the complement of its ones. -/
lemma land_complement_eq_zero_iff {n width shift len : ℕ} (hn : n < 2 ^ width)
    (h : shift + len ≤ width) :
    n &&& complement width (modeMask shift len) = 0 ↔
      n % 2 ^ shift = 0 ∧ n < 2 ^ (shift + len) := by
  have hbits (i : ℕ) : (n &&& complement width (modeMask shift len)).testBit i = true ↔
      n.testBit i = true ∧ ¬ (shift ≤ i ∧ i < shift + len) := by
    have hlt : n.testBit i = true → i < width := by
      intro hi
      by_contra hge
      have hpow : 2 ^ width ≤ 2 ^ i := Nat.pow_le_pow_right (by decide) (by omega)
      rw [Nat.testBit_lt_two_pow (Nat.lt_of_lt_of_le hn hpow)] at hi
      cases hi
    rw [Nat.testBit_and, complement, Nat.sub_sub, Nat.add_comm 1,
      Nat.testBit_two_pow_sub_succ (modeMask_lt h), testBit_modeMask]
    simp only [Bool.and_eq_true, Bool.not_eq_true', decide_eq_true_eq, decide_eq_false_iff_not]
    exact ⟨fun ⟨hi, _, hout⟩ => ⟨hi, hout⟩, fun ⟨hi, hout⟩ => ⟨hi, hlt hi, hout⟩⟩
  rw [bits_between_iff]
  constructor
  · intro hzero i hi
    by_contra hout
    have hbit := (hbits i).mpr ⟨hi, hout⟩
    simp [hzero] at hbit
  · intro hin
    apply Nat.eq_of_testBit_eq
    intro i
    rw [Nat.zero_testBit, ← Bool.not_eq_true, hbits]
    exact fun hi => hi.2 (hin i hi.1)

/-- The ones of the field are put together from a power of two, and the bits of the data beside
them are those under the complement in 32 bits. -/
def mode? (word : UInt64) : Reading (ℕ × ℕ × ℕ) := do
  let len ← add? 64 (← field? word 32 8) 1
  let fromTop ← field? word 40 8
  let reach ← add? 64 fromTop len
  if 32 < reach then throw (.modeField len fromTop)
  else
    let below ← sub? 32 fromTop
    let shift ← sub? below len
    let above ← shiftLeft? 64 1 len
    let ones ← sub? above 1
    let placed ← shiftLeft? 64 ones shift
    let field ← narrow? 32 placed
    if Word.low word &&& complement 32 field ≠ 0 then throw (.modeData (Word.low word) field)
    else
      let shift ← narrow? 8 shift
      let len ← narrow? 8 len
      return (shift, len, Word.low word)

lemma gives_mode : Gives (mode? word) (readMode word) := by
  have hlen := Word.field_lt word 32 8
  have hfromTop := Word.field_lt word 40 8
  refine .field (by decide) (.step (add?_of_lt (by omega)) ?_)
  refine .field (by decide) (.step (add?_of_lt (by omega)) ?_)
  refine .ite .rfl (fun _ => .error) fun hreach => ?_
  refine .step (sub?_of_le (by omega)) (.step (sub?_of_le (by omega)) ?_)
  generalize Word.field word 32 8 + 1 = len at *
  generalize hshift : 32 - Word.field word 40 8 - len = shift
  have hmask : modeMask shift len < 2 ^ 32 := modeMask_lt (by omega)
  have habove : 2 ^ len ≤ 2 ^ 32 := Nat.pow_le_pow_right (by decide) (by omega)
  have hdata := land_complement_eq_zero_iff (Word.field_lt word 0 32) (by omega : shift + len ≤ 32)
  have hpos : 1 ≤ 1 * 2 ^ len := by have := Nat.two_pow_pos len; omega
  refine .step (shiftLeft?_of_lt (by omega) (by omega)) (.step (sub?_of_le hpos) ?_)
  rw [Nat.one_mul]
  refine .step (shiftLeft?_of_lt (by omega) (Nat.lt_trans hmask (by decide))) ?_
  refine .step (narrow?_of_lt hmask) ?_
  refine .iteNot (not_congr hdata) (fun _ => .error) fun _ => ?_
  exact .step (narrow?_of_lt (by omega)) (.step (narrow?_of_lt (by omega)) .ok)

def key? (word : UInt64) (width center scale : ℕ) : Reading KeyChannel := do
  let width ← field? word width 12
  let center ← fieldInto? 8 word center 8
  let scale ← fieldInto? 8 word scale 8
  return ⟨.ofBits width, center, scale⟩

lemma gives_key {width center scale : ℕ} (h : width < 64 ∧ center < 64 ∧ scale < 64) :
    Gives (key? word width center scale) (.ok (readKey (Word.field word width 12)
      (Word.field word center 8) (Word.field word scale 8))) :=
  .field (by omega) (.fieldInto (by omega) (.fieldInto (by omega) .ok))

/-- The upper half of a word without its top byte, under a mask. -/
def upper? (word : UInt64) : Reading ℕ := do
  let moved ← shiftRight? 64 word.toNat 32
  let upper ← narrow? 32 moved
  return upper &&& 0xFFFFFF

/-- A mask of ones takes the field below the top byte. -/
lemma gives_upper : Gives (upper? word) (.ok (Word.field word 32 24)) := by
  have hlt := word.toNat_lt
  have hmask : word.toNat / 2 ^ 32 &&& 0xFFFFFF = Word.field word 32 24 :=
    Nat.and_two_pow_sub_one_eq_mod _ 24
  refine .step (shiftRight?_of_lt (by decide)) (.step (narrow?_of_lt (by omega)) ?_)
  rw [hmask]
  exact .ok

/-- The coefficient in place `i` from the top, as a number of 16 bits. -/
def coefficient? (word : UInt64) (i : ℕ) : Reading ℤ := do
  let shift ← sub? 45 (9 * i)
  let extended ← signExtend? (← field? word shift 9) 9
  narrowSigned? 16 extended

/-- The coefficients lie next to each other, from bit 45 downward. -/
lemma gives_coefficient {i : ℕ} (h : i ≤ 5) :
    Gives (coefficient? word i) (.ok (coefficient word (45 - 9 * i))) := by
  have hlt := Word.field_lt word (45 - 9 * i) 9
  have hbounds : -2 ^ 8 ≤ Word.signed 9 (Word.field word (45 - 9 * i) 9) ∧
      Word.signed 9 (Word.field word (45 - 9 * i) 9) < 2 ^ 8 := signed_bounds 8 _
  refine .step (sub?_of_le (by omega)) (.field (by omega) ?_)
  refine .step (signExtend?_eq (by decide) (by decide) hlt) ?_
  exact .last (narrowSigned?_of_bounds (by omega) (by omega))

lemma flag_ne_zero (word : UInt64) (shift : ℕ) :
    (Word.field word shift 1 != 0) = (Word.field word shift 1 == 1) := by
  have hlt := Word.field_lt word shift 1
  generalize Word.field word shift 1 = n at *
  interval_cases n <;> rfl

/-- The switches of a field of three bits with its lowest bit turned over. -/
lemma switches_eq (word : UInt64) (shift : ℕ) :
    let switches := Word.field word shift 3 ^^^ 1
    (switches &&& 1 != 0) = (Word.field word shift 1 == 0) ∧
      (switches &&& 2 != 0) = (Word.field word (shift + 1) 1 == 1) ∧
      (switches &&& 4 != 0) = (Word.field word (shift + 2) 1 == 1) := by
  have h0 := Word.field_lt word shift 1
  have h1 := Word.field_lt word (shift + 1) 1
  have h2 := Word.field_lt word (shift + 2) 1
  rw [Word.field_succ word shift 2, Word.field_succ word (shift + 1) 1]
  generalize Word.field word shift 1 = a at *
  generalize Word.field word (shift + 1) 1 = b at *
  generalize Word.field word (shift + 2) 1 = c at *
  interval_cases a <;> interval_cases b <;> interval_cases c <;> decide

end Reading

end Command

end Cartridge
