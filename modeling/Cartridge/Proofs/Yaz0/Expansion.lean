import Cartridge.Proofs.Yaz0.Cutting
import Cartridge.Proofs.Yaz0.Soundness
import Mathlib.Logic.Relation

/-!
# How far a file can expand

A run of decompression goes from point to point: it takes the flags of a group, a byte of
content or a reference, or it repeats one byte of the last reference. A point is charged with the
content that it has made, with the bytes of the reference that it still has to repeat, and with
the most that the flags and bytes which are left can pay for. The best rate is that of a group of
eight references of three bytes, which takes 25 bytes and makes 2184. No step makes the charge
greater, so the content never outgrows this rate, whatever size the file declares.
-/
namespace Cartridge.Yaz0

/-- A point of a run: the flags and the bytes that have not been used, how many bytes of the last
reference are pending and from what distance they come, and the content made so far. -/
structure Point where
  flags : List Bool
  source : Bytes
  distance : ℕ
  pending : ℕ
  out : Array UInt8

/-- What comes after a point: another one, or the end of the run. -/
inductive Next
  | point (p : Point)
  | ends (result : Except Error Bytes)

/-- The end of a run that comes to its size or to the end of the bytes. -/
def close (size : ℕ) (out : Array UInt8) : Except Error Bytes :=
  if out.size = size then .ok out.toList else .error (.sizeMismatch size out.size)

/-- The size of the content that a result tells of, if it tells of one. -/
def toldSize : Except Error Bytes → Option ℕ
  | .ok content => some content.length
  | .error (.sizeMismatch _ actual) => some actual
  | .error _ => none

lemma toldSize_close (size : ℕ) (out : Array UInt8) :
    toldSize (close size out) = some out.size := by
  unfold close
  split
  · simp [toldSize]
  · rfl

namespace Point

/-- The start of a run over the bytes behind a header. -/
def start (source : Bytes) : Point := ⟨[], source, 0, 0, #[]⟩

/-- What comes after a reference has been read: as many of its bytes are pending as there is
room for. -/
def refer (size : ℕ) (flags : List Bool) (source : Bytes) (distance length : ℕ)
    (out : Array UInt8) : Next :=
  if out.size < distance then .ends (.error (.badReference distance out.size))
  else .point ⟨flags, source, distance, min length (size - out.size), out⟩

/-- What comes after a point with nothing pending and with room for more content. -/
def token (total size : ℕ) (out : Array UInt8) : List Bool → Bytes → Next
  | _, [] => .ends (close size out)
  | [], group :: source => .point ⟨flagBits group, source, 0, 0, out⟩
  | true :: flags, byte :: source => .point ⟨flags, source, 0, 0, out.push byte⟩
  | false :: _, [_] => .ends (.error (.truncated total))
  | false :: flags, b0 :: b1 :: source =>
    if b0.toNat / 16 = 0 then
      match source with
      | [] => .ends (.error (.truncated total))
      | b2 :: source => refer size flags source (distanceOf b0 b1) (b2.toNat + 0x12) out
    else refer size flags source (distanceOf b0 b1) (b0.toNat / 16 + 2) out

/-- What comes after a point, in a file of some total length that declares a size. -/
def next (total size : ℕ) : Point → Next
  | ⟨flags, source, distance, n + 1, out⟩ =>
    .point ⟨flags, source, distance, n, out.push (out.getD (out.size - distance) 0)⟩
  | ⟨flags, source, _, 0, out⟩ =>
    if size ≤ out.size then .ends (close size out) else token total size out flags source

variable {total size : ℕ} {p q : Point} {result : Except Error Bytes}

/-- A run comes from one point to another. -/
def Reaches (total size : ℕ) : Point → Point → Prop :=
  Relation.ReflTransGen fun p q => p.next total size = .point q

/-- A run from a point ends with a result. -/
def Ends (total size : ℕ) (p : Point) (result : Except Error Bytes) : Prop :=
  ∃ q, Reaches total size p q ∧ q.next total size = .ends result

lemma Ends.head (hstep : p.next total size = .point q) (h : Ends total size q result) :
    Ends total size p result := by
  obtain ⟨last, hreaches, hends⟩ := h
  exact ⟨last, .head hstep hreaches, hends⟩

section Runs

variable {flags flags' : List Bool} {source source' : Bytes} {distance length : ℕ}
  {out out' : Array UInt8}

lemma next_of_lt (h : out.size < size) (last : ℕ) :
    next total size ⟨flags, source, last, 0, out⟩ = token total size out flags source :=
  if_neg (Nat.not_le_of_lt h)

lemma ends_of_le (h : size ≤ out.size) (last : ℕ) :
    Ends total size ⟨flags, source, last, 0, out⟩ (close size out) :=
  ⟨_, .refl, if_pos h⟩

lemma ends_of_token (h : out.size < size) (last : ℕ)
    (htoken : token total size out flags source = .ends result) :
    Ends total size ⟨flags, source, last, 0, out⟩ result :=
  ⟨_, .refl, (next_of_lt h last).trans htoken⟩

/-- The pending bytes are repeated one by one. -/
lemma Ends.repeated (n : ℕ)
    (h : Ends total size ⟨flags, source, distance, 0, copyBack distance n out⟩ result) :
    Ends total size ⟨flags, source, distance, n, out⟩ result := by
  induction n generalizing out with
  | zero => exact h
  | succ n ih => exact .head rfl (ih h)

/-- A reference that can be repeated leaves its bytes pending. -/
lemma Ends.reference (h : out.size < size) (last : ℕ)
    (htoken : token total size out flags source = refer size flags' source' distance length out)
    (hrepeat : repeatBack size distance length out = .ok out')
    (hends : Ends total size ⟨flags', source', distance, 0, out'⟩ result) :
    Ends total size ⟨flags, source, last, 0, out⟩ result := by
  obtain ⟨hle, rfl⟩ := repeatBack_eq_ok hrepeat
  have hrefer := htoken.trans (if_neg (Nat.not_lt_of_le hle))
  exact .head ((next_of_lt h last).trans hrefer) hends.repeated

lemma ends_of_repeatBack {e : Error} (h : out.size < size) (last : ℕ)
    (htoken : token total size out flags source = refer size flags' source' distance length out)
    (hrepeat : repeatBack size distance length out = .error e) :
    Ends total size ⟨flags, source, last, 0, out⟩ (.error e) := by
  obtain ⟨hlt, rfl⟩ := repeatBack_eq_error hrepeat
  exact ends_of_token h last (htoken.trans (if_pos hlt))

/-- A run ends with what the reader makes of the source. -/
theorem ends_readTokens (total size : ℕ) (flags : List Bool) (source : Bytes) (last : ℕ)
    (out : Array UInt8) :
    Ends total size ⟨flags, source, last, 0, out⟩
      ((readTokens total size flags source out).bind (close size)) := by
  fun_induction readTokens total size flags source out generalizing last with
  | case1 flags out =>
    by_cases hfull : size ≤ out.size
    · exact ends_of_le hfull last
    · exact ends_of_token (Nat.lt_of_not_le hfull) last (by cases flags <;> rfl)
  | case2 group source out hfull => exact ends_of_le hfull last
  | case3 group source out hlt ih =>
    exact .head (next_of_lt (Nat.lt_of_not_le hlt) last) (ih 0)
  | case4 flags byte source out hfull => exact ends_of_le hfull last
  | case5 flags byte source out hlt ih =>
    exact .head (next_of_lt (Nat.lt_of_not_le hlt) last) (ih 0)
  | case6 flags b0 out hfull => exact ends_of_le hfull last
  | case7 flags b0 out hlt => exact ends_of_token (Nat.lt_of_not_le hlt) last rfl
  | case8 flags b0 b1 source out hfull => exact ends_of_le hfull last
  | case9 flags b0 b1 out hlt hlong =>
    exact ends_of_token (Nat.lt_of_not_le hlt) last (if_pos hlong)
  | case10 flags b0 b1 out hlt hlong b2 source out' hrepeat ih =>
    exact .reference (Nat.lt_of_not_le hlt) last (if_pos hlong) hrepeat (ih _)
  | case11 flags b0 b1 out hlt hlong b2 source e hrepeat =>
    exact ends_of_repeatBack (Nat.lt_of_not_le hlt) last (if_pos hlong) hrepeat
  | case12 flags b0 b1 source out hlt hshort out' hrepeat ih =>
    exact .reference (Nat.lt_of_not_le hlt) last (if_neg hshort) hrepeat (ih _)
  | case13 flags b0 b1 source out hlt hshort e hrepeat =>
    exact ends_of_repeatBack (Nat.lt_of_not_le hlt) last (if_neg hshort) hrepeat

end Runs

section Charge

/-- The charge of a point, in parts of 25 to a byte of content. A byte of the source pays for
2184 of them, and a flag is paid by its group for an eighth of that. -/
def charge (p : Point) : ℕ :=
  25 * (p.out.size + p.pending) + 2184 * p.source.length + 273 * p.flags.length

variable {flags : List Bool} {source : Bytes} {distance length : ℕ} {out : Array UInt8}

lemma charge_refer_le (h : refer size flags source distance length out = .point q) :
    q.charge ≤ 25 * (out.size + length) + 2184 * source.length + 273 * flags.length := by
  unfold refer at h
  split at h
  · cases h
  · cases h
    have hmin : min length (size - out.size) ≤ length := Nat.min_le_left _ _
    simp only [charge]
    omega

/-- The bytes and the flag of a token pay for it: a reference repeats at most 273 bytes for three,
and at most 17 for two. -/
lemma charge_token_le (h : token total size out flags source = .point q) :
    q.charge ≤ 25 * out.size + 2184 * source.length + 273 * flags.length := by
  unfold token at h
  split at h
  · cases h
  · cases h
    simp only [charge, length_flagBits, List.length_cons]
    omega
  · cases h
    simp only [charge, Array.size_push, List.length_cons]
    omega
  · cases h
  · next flags b0 b1 source =>
    split at h
    · split at h
      · cases h
      · next b2 source =>
        have hb2 := b2.toNat_lt
        have hle := charge_refer_le h
        simp only [List.length_cons]
        omega
    · have hb0 := b0.toNat_lt
      have hle := charge_refer_le h
      simp only [List.length_cons]
      omega

/-- No step makes the charge greater. -/
theorem charge_next_le (h : p.next total size = .point q) : q.charge ≤ p.charge := by
  obtain ⟨flags, source, distance, pending, out⟩ := p
  cases pending with
  | succ n =>
    cases h
    simp only [charge, Array.size_push]
    omega
  | zero =>
    rw [next] at h
    split at h
    · cases h
    · exact charge_token_le h

/-- No run makes the charge greater. -/
theorem charge_le_of_reaches (h : Reaches total size p q) : q.charge ≤ p.charge := by
  induction h with
  | refl => exact Nat.le_refl _
  | tail _ hstep ih => exact Nat.le_trans (charge_next_le hstep) ih

/-- The content of a point stays within what the bytes of the source can pay for. -/
theorem size_le_of_reaches (h : Reaches total size (start source) p) :
    25 * p.out.size ≤ 2184 * source.length := by
  have hle := charge_le_of_reaches h
  simp only [charge, start, List.size_toArray, List.length_nil] at hle
  omega

end Charge

section Results

variable {flags : List Bool} {source : Bytes} {distance length : ℕ} {out : Array UInt8}

lemma refer_eq_ends (h : refer size flags source distance length out = .ends result) :
    result = .error (.badReference distance out.size) := by
  unfold refer at h
  split at h <;> cases h
  rfl

/-- A run ends where the content is closed, where the file ends inside a reference, or at a
reference that reaches too far back. -/
lemma token_eq_ends (h : token total size out flags source = .ends result) :
    result = close size out ∨ result = .error (.truncated total) ∨
      ∃ distance, result = .error (.badReference distance out.size) := by
  unfold token at h
  split at h
  · cases h
    exact .inl rfl
  · cases h
  · cases h
  · cases h
    exact .inr (.inl rfl)
  · split at h
    · split at h
      · cases h
        exact .inr (.inl rfl)
      · exact .inr (.inr ⟨_, refer_eq_ends h⟩)
    · exact .inr (.inr ⟨_, refer_eq_ends h⟩)

lemma next_eq_ends (h : p.next total size = .ends result) :
    result = close size p.out ∨ result = .error (.truncated total) ∨
      ∃ distance, result = .error (.badReference distance p.out.size) := by
  obtain ⟨flags, source, distance, pending, out⟩ := p
  cases pending with
  | succ n => cases h
  | zero =>
    rw [next] at h
    split at h
    · cases h
      exact .inl rfl
    · exact token_eq_ends h

/-- A size that the end of a run tells of is that of the content made so far. -/
lemma size_eq_of_next {n : ℕ} (h : p.next total size = .ends result)
    (htold : toldSize result = some n) : n = p.out.size := by
  rcases next_eq_ends h with rfl | rfl | ⟨distance, rfl⟩
  · rw [toldSize_close] at htold
    cases htold
    rfl
  · cases htold
  · cases htold

end Results

end Point

section Files

variable {file : Bytes} {size : ℕ}

/-- Decompression is what the run over the bytes behind the header ends with. -/
theorem ends_decompress (h : declaredSize file = .ok size) :
    Point.Ends file.length size (.start (file.drop headerSize)) (decompress file) := by
  have hends := Point.ends_readTokens file.length size [] (file.drop headerSize) 0 #[]
  rw [decompress, h]
  exact hends

lemma exists_declaredSize {n : ℕ} (h : toldSize (decompress file) = some n) :
    ∃ size, declaredSize file = .ok size := by
  cases hsize : declaredSize file with
  | ok size => exact ⟨size, rfl⟩
  | error e =>
    rw [decompress, hsize] at h
    unfold declaredSize at hsize
    split at hsize
    · cases hsize
      cases h
    · split at hsize <;> cases hsize
      cases h

theorem size_le_of_reaches_file {p : Point}
    (h : Point.Reaches file.length size (.start (file.drop headerSize)) p) :
    25 * p.out.size ≤ 2184 * (file.length - headerSize) := by
  rw [← List.length_drop]
  exact Point.size_le_of_reaches h

/-- No result tells of more content than the bytes behind the header can make. -/
theorem toldSize_le {n : ℕ} (h : toldSize (decompress file) = some n) :
    25 * n ≤ 2184 * (file.length - headerSize) := by
  obtain ⟨size, hsize⟩ := exists_declaredSize h
  obtain ⟨last, hreaches, hends⟩ := ends_decompress hsize
  rw [Point.size_eq_of_next hends h]
  exact size_le_of_reaches_file hreaches

/-- A file that declares more than its bytes can make is not decompressed. -/
theorem exists_error_of_declaredSize (h : declaredSize file = .ok size)
    (hlt : 2184 * (file.length - headerSize) < 25 * size) : ∃ e, decompress file = .error e := by
  cases hresult : decompress file with
  | error e => exact ⟨e, rfl⟩
  | ok content =>
    have hsize := declaredSize_of_decompress hresult
    rw [h] at hsize
    cases hsize
    exact absurd (toldSize_le (by rw [hresult, toldSize])) (Nat.not_le_of_lt hlt)

end Files

/-- Decompression makes at most 2184 bytes for 25 behind the header, whether it succeeds, stops
short of the declared size, or is still under way; so it fails where more is declared. -/
theorem decompress_expansion (file : Bytes) :
    (∀ content, decompress file = .ok content →
      25 * content.length ≤ 2184 * (file.length - headerSize)) ∧
    (∀ expected actual, decompress file = .error (.sizeMismatch expected actual) →
      25 * actual ≤ 2184 * (file.length - headerSize)) ∧
    ∀ size, declaredSize file = .ok size →
      (2184 * (file.length - headerSize) < 25 * size → ∃ e, decompress file = .error e) ∧
      Point.Ends file.length size (.start (file.drop headerSize)) (decompress file) ∧
      ∀ p, Point.Reaches file.length size (.start (file.drop headerSize)) p →
        25 * p.out.size ≤ 2184 * (file.length - headerSize) := by
  refine ⟨?_, ?_, ?_⟩
  · intro content h
    exact toldSize_le (by rw [h, toldSize])
  · intro expected actual h
    exact toldSize_le (by rw [h, toldSize])
  · intro size h
    exact ⟨exists_error_of_declaredSize h, ends_decompress h, fun p => size_le_of_reaches_file⟩

/-- A byte and a long repetition of it; and a byte in a file that declares four gigabytes. -/
theorem decompress_expansion_repetition :
    let file : Bytes := [0x59, 0x61, 0x7A, 0x30, 0, 0, 0, 19, 0, 0, 0, 0, 0, 0, 0, 0,
      0x80, 0x71, 0x00, 0x00, 0x00]
    let huge : Bytes := [0x59, 0x61, 0x7A, 0x30, 0xFF, 0xFF, 0xFF, 0xFF, 0, 0, 0, 0, 0, 0, 0, 0,
      0x80, 0x71]
    let first : Point := ⟨(flagBits 0x80).drop 1, [], 0, 0, #[0x71]⟩
    decompress file = .ok (List.replicate 19 0x71) ∧ 25 * 19 ≤ 2184 * 5 ∧
      decompress huge = .error (.sizeMismatch 0xFFFFFFFF 1) ∧ 25 * 1 ≤ 2184 * 2 ∧
      declaredSize huge = .ok 0xFFFFFFFF ∧ (∃ e, decompress huge = .error e) ∧
      Point.Reaches 18 0xFFFFFFFF (.start [0x80, 0x71]) first ∧ 25 * first.out.size ≤ 2184 * 2 := by
  intro file huge first
  have hfile : decompress file = .ok (List.replicate 19 0x71) := by cbv
  have hhuge : decompress huge = .error (.sizeMismatch 0xFFFFFFFF 1) := by cbv
  have hsize : declaredSize huge = .ok 0xFFFFFFFF := by cbv
  have hgroup : (Point.start [0x80, 0x71]).next 18 0xFFFFFFFF =
      .point ⟨flagBits 0x80, [0x71], 0, 0, #[]⟩ := Point.next_of_lt (by decide) 0
  have hliteral : Point.next 18 0xFFFFFFFF ⟨flagBits 0x80, [0x71], 0, 0, #[]⟩ = .point first :=
    Point.next_of_lt (by decide) 0
  have hreaches : Point.Reaches 18 0xFFFFFFFF (.start [0x80, 0x71]) first :=
    .head hgroup (.head hliteral .refl)
  obtain ⟨hcontent, -⟩ := decompress_expansion file
  obtain ⟨-, hmismatch, hdeclared⟩ := decompress_expansion huge
  obtain ⟨hfails, -, hpoints⟩ := hdeclared _ hsize
  exact ⟨hfile, hcontent _ hfile, hhuge, hmismatch _ _ hhuge, hsize, hfails (by decide), hreaches,
    hpoints first hreaches⟩

end Cartridge.Yaz0
