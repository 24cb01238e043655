import Cartridge.Proofs.Result
import Cartridge.Proofs.Yaz0.Offsets

/-!
# Files that are cut or go on

The reader looks at no byte before it needs it. So bytes behind those that it takes change
nothing, and where bytes are cut off, the reader comes to its result without them or runs out
of bytes. A file that is cut never becomes another file: what is left of it has the same
content, or decompression says that bytes are lacking.
-/
namespace Cartridge.Yaz0

/-- The source ended before the content was full, between two tokens or inside one. -/
inductive RanOut (total size : ℕ) : Except Error (Array UInt8) → Prop
  | between {out : Array UInt8} (size_lt : out.size < size) : RanOut total size (.ok out)
  | inside : RanOut total size (.error (.truncated total))

/-- A reader that does not run out of bytes does not look behind the source. -/
theorem readTokens_append (total total' size : ℕ) (flags : List Bool) (source behind : Bytes)
    (out : Array UInt8) :
    RanOut total size (readTokens total size flags source out) ∨
      readTokens total' size flags (source ++ behind) out =
        readTokens total size flags source out := by
  fun_induction readTokens total size flags source out with
  | case1 flags out =>
    by_cases hfull : size ≤ out.size
    · exact .inr (readTokens_of_size_le hfull)
    · exact .inl (.between (Nat.lt_of_not_le hfull))
  | case2 group source out hfull => exact .inr (readTokens_of_size_le hfull)
  | case3 group source out hlt ih =>
    rw [List.cons_append, readTokens_group (Nat.lt_of_not_le hlt)]
    exact ih
  | case4 flags byte source out hfull => exact .inr (readTokens_of_size_le hfull)
  | case5 flags byte source out hlt ih =>
    rw [List.cons_append, readTokens_literal (Nat.lt_of_not_le hlt)]
    exact ih
  | case6 flags b0 out hfull => exact .inr (readTokens_of_size_le hfull)
  | case7 flags b0 out hlt => exact .inl .inside
  | case8 flags b0 b1 source out hfull => exact .inr (readTokens_of_size_le hfull)
  | case9 flags b0 b1 out hlt hlong => exact .inl .inside
  | case10 flags b0 b1 out hlt hlong b2 source out' hrepeat ih =>
    simp only [List.cons_append]
    rw [Offsets.readTokens_threeBytes (Nat.lt_of_not_le hlt) hlong, hrepeat]
    exact ih
  | case11 flags b0 b1 out hlt hlong b2 source e hrepeat =>
    right
    simp only [List.cons_append]
    rw [Offsets.readTokens_threeBytes (Nat.lt_of_not_le hlt) hlong, hrepeat]
    rfl
  | case12 flags b0 b1 source out hlt hshort out' hrepeat ih =>
    simp only [List.cons_append]
    rw [Offsets.readTokens_twoBytes (Nat.lt_of_not_le hlt) hshort, hrepeat]
    exact ih
  | case13 flags b0 b1 source out hlt hshort e hrepeat =>
    right
    simp only [List.cons_append]
    rw [Offsets.readTokens_twoBytes (Nat.lt_of_not_le hlt) hshort, hrepeat]
    rfl

section Files

variable {file content : Bytes}

lemma declaredSize_append (h : headerSize ≤ file.length) (behind : Bytes) :
    declaredSize (file ++ behind) = declaredSize file := by
  have hlength : 16 ≤ file.length := h
  have hmagic : (file ++ behind).take 4 = file.take 4 := List.take_append_of_le_length (by omega)
  have hsize : (file ++ behind).extract 4 8 = file.extract 4 8 := by
    rw [List.extract_eq_take_drop, List.extract_eq_take_drop,
      List.drop_append_of_le_length (by omega), List.take_append_of_le_length]
    rw [List.length_drop]
    omega
  have hlong : headerSize ≤ (file ++ behind).length := by
    rw [List.length_append]
    omega
  rw [declaredSize, declaredSize, if_neg (Nat.not_lt_of_le h), if_neg (Nat.not_lt_of_le hlong),
    isCompressed, isCompressed, hmagic, hsize]

/-- A content has the size that the header declares. -/
lemma declaredSize_of_decompress (h : decompress file = .ok content) :
    declaredSize file = .ok content.length := by
  obtain ⟨size, hsize, h⟩ := bind_eq_ok.mp h
  obtain ⟨out, -, h⟩ := bind_eq_ok.mp h
  split at h
  · next hout =>
    cases h
    rw [hsize, Array.length_toList, hout]
  · cases h

/-- What decompression answers where the bytes of a file come to an end too early. -/
inductive Lacking (file : Bytes) : Except Error Bytes → Prop
  | truncated : Lacking file (.error (.truncated file.length))
  | sizeMismatch {size actual : ℕ} (declared : declaredSize file = .ok size)
      (actual_lt : actual < size) : Lacking file (.error (.sizeMismatch size actual))

/-- A file that does not lack bytes gives the same result whatever stands behind it. -/
theorem decompress_append (file behind : Bytes) :
    Lacking file (decompress file) ∨ decompress (file ++ behind) = decompress file := by
  by_cases hshort : file.length < headerSize
  · left
    have hdeclared : declaredSize file = .error (.truncated file.length) := if_pos hshort
    rw [decompress, hdeclared]
    exact .truncated
  have hlong : headerSize ≤ file.length := Nat.le_of_not_lt hshort
  unfold decompress
  rw [declaredSize_append hlong, List.drop_append_of_le_length hlong]
  cases hdeclared : declaredSize file with
  | error e => exact .inr rfl
  | ok size =>
    simp only [bind, Except.bind]
    rcases readTokens_append file.length (file ++ behind).length size [] (file.drop headerSize)
      behind #[] with hout | hsame
    · left
      generalize readTokens file.length size [] (file.drop headerSize) #[] = result at hout
      cases hout with
      | between size_lt =>
        simp only [if_neg (Nat.ne_of_lt size_lt)]
        exact .sizeMismatch hdeclared size_lt
      | inside => exact .truncated
    · right
      rw [hsame]

/-- A result that is not for want of bytes does not depend on those behind the file. -/
lemma decompress_append_eq {result : Except Error Bytes} (h : decompress file = result)
    (hnot : ¬ Lacking file result) (behind : Bytes) : decompress (file ++ behind) = result := by
  cases decompress_append file behind with
  | inl hlacking =>
    rw [h] at hlacking
    exact absurd hlacking hnot
  | inr hsame => exact hsame.trans h

end Files

/-- A file with more bytes behind it has the same content, and a file that is cut has the same
content or lacks bytes: it is too short, or has less content than it declares. A file with a
reference that reaches too far back keeps it whatever stands behind. -/
theorem decompress_extended_and_cut :
    (∀ file content, decompress file = .ok content →
      (∀ behind, decompress (file ++ behind) = .ok content) ∧
      ∀ front, front <+: file →
        decompress front = .ok content ∨
        decompress front = .error (.truncated front.length) ∨
        ∃ actual < content.length,
          decompress front = .error (.sizeMismatch content.length actual)) ∧
    ∀ file distance position, decompress file = .error (.badReference distance position) →
      ∀ behind, decompress (file ++ behind) = .error (.badReference distance position) := by
  constructor
  · intro file content h
    have hnot : ¬ Lacking file (.ok content) := by
      intro hlacking
      cases hlacking
    refine ⟨decompress_append_eq h hnot, ?_⟩
    rintro front ⟨behind, rfl⟩
    have happend := decompress_append front behind
    generalize decompress front = result at happend
    cases happend with
    | inr hsame => exact .inl (hsame.symm.trans h)
    | inl hlacking =>
      cases hlacking with
      | truncated => exact .inr (.inl rfl)
      | @sizeMismatch size actual declared actual_lt =>
        have hlong : headerSize ≤ front.length := by
          apply Nat.le_of_not_lt
          intro hshort
          rw [declaredSize, if_pos hshort] at declared
          cases declared
        have hsize := declaredSize_of_decompress h
        rw [declaredSize_append hlong, declared] at hsize
        cases hsize
        exact .inr (.inr ⟨actual, actual_lt, rfl⟩)
  · intro file distance position h
    have hnot : ¬ Lacking file (.error (.badReference distance position)) := by
      intro hlacking
      cases hlacking
    exact decompress_append_eq h hnot

/-- A byte and a reference that repeats it, cut anywhere; and a reference of distance 2 behind
one byte. -/
theorem decompress_extended_and_cut_repetition :
    let header : Bytes := [0x59, 0x61, 0x7A, 0x30, 0, 0, 0, 10, 0, 0, 0, 0, 0, 0, 0, 0]
    let file := header ++ [0x80, 0x78, 0x70, 0x00]
    let far := header ++ [0x80, 0x78, 0x70, 0x01]
    let content : Bytes := List.replicate 10 0x78
    decompress file = .ok content ∧
      decompress (file ++ [0x13, 0x37]) = .ok content ∧
      (∀ n, decompress (file.take n) = .ok content ∨
        decompress (file.take n) = .error (.truncated (file.take n).length) ∨
        ∃ actual < 10, decompress (file.take n) = .error (.sizeMismatch 10 actual)) ∧
      decompress far = .error (.badReference 2 1) ∧
      decompress (far ++ [0x80]) = .error (.badReference 2 1) := by
  intro header file far content
  have hfile : decompress file = .ok content := by cbv
  have hfar : decompress far = .error (.badReference 2 1) := by cbv
  obtain ⟨hbehind, hfront⟩ := decompress_extended_and_cut.1 file content hfile
  refine ⟨hfile, hbehind [0x13, 0x37], ?_, hfar, ?_⟩
  · intro n
    exact hfront (file.take n) (List.take_prefix n file)
  · exact decompress_extended_and_cut.2 far 2 1 hfar [0x80]

end Cartridge.Yaz0
