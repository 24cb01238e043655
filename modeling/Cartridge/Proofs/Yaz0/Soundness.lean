import Cartridge.Proofs.Yaz0.Offsets

/-!
# What the reader accepts

Whatever the bytes of a file are, decompression tells something of them. A content
is that of tokens which the file encodes, and a failure names the first place where
the file stops to encode tokens of a content that has the declared size.
-/
namespace Cartridge.Yaz0

open Token

/-- The reference with the bits of two bytes, which has a short length. -/
def Reference.ofTwoBytes (b0 b1 : UInt8) (h : b0.toNat / 16 ≠ 0) : Reference where
  distance := distanceOf b0 b1
  length := b0.toNat / 16 + 2
  one_le_distance := distanceOf_pos b0 b1
  distance_le := distanceOf_le b0 b1
  three_le_length := by omega
  length_le := by
    have := b0.toNat_lt
    omega

/-- The reference with the bits of three bytes, which has a long length. -/
def Reference.ofThreeBytes (b0 b1 b2 : UInt8) : Reference where
  distance := distanceOf b0 b1
  length := b2.toNat + 0x12
  one_le_distance := distanceOf_pos b0 b1
  distance_le := distanceOf_le b0 b1
  three_le_length := by omega
  length_le := by
    have := b2.toNat_lt
    omega

lemma ofNat_eq_of_toNat {n : ℕ} {b : UInt8} (h : n = b.toNat) : UInt8.ofNat n = b := by
  rw [h, UInt8.ofNat_toNat]

theorem bytes_ofTwoBytes (b0 b1 : UInt8) (h : b0.toNat / 16 ≠ 0) :
    (Token.reference (.ofTwoBytes b0 b1 h)).bytes = [b0, b1] := by
  have hb0 := b0.toNat_lt
  have hb1 := b1.toNat_lt
  have hshort : (Reference.ofTwoBytes b0 b1 h).length ≤ 17 := by
    change b0.toNat / 16 + 2 ≤ 17
    omega
  rw [Token.bytes, if_pos hshort]
  simp only [Reference.ofTwoBytes, distanceOf]
  rw [ofNat_eq_of_toNat (b := b0) (by omega), ofNat_eq_of_toNat (b := b1) (by omega)]

theorem bytes_ofThreeBytes (b0 b1 b2 : UInt8) (h : b0.toNat / 16 = 0) :
    (Token.reference (.ofThreeBytes b0 b1 b2)).bytes = [b0, b1, b2] := by
  have hb1 := b1.toNat_lt
  have hlong : ¬ (Reference.ofThreeBytes b0 b1 b2).length ≤ 17 := by
    change ¬ b2.toNat + 0x12 ≤ 17
    omega
  rw [Token.bytes, if_neg hlong]
  simp only [Reference.ofThreeBytes, distanceOf]
  rw [ofNat_eq_of_toNat (b := b0) (by omega), ofNat_eq_of_toNat (b := b1) (by omega),
    ofNat_eq_of_toNat (b := b2) (by omega)]

/-- The bytes are those of the tokens, of which the first have the pending flags. -/
structure Encodes (flags : List Bool) (tokens : List Token) (bytes : Bytes) : Prop where
  flags_eq : (tokens.take flags.length).map flag = flags.take tokens.length
  bytes_eq : ∃ spare, bytes =
    (tokens.take flags.length).flatMap Token.bytes ++ encode spare (tokens.drop flags.length)

section Encodes

variable {flags : List Bool} {tokens : List Token} {bytes : Bytes} {byte : UInt8}

lemma encodes_nil (flags : List Bool) : Encodes flags [] [] where
  flags_eq := by simp
  bytes_eq := ⟨0, by simp [encode]⟩

lemma Encodes.eq_nil (h : Encodes flags [] bytes) : bytes = [] := by
  obtain ⟨spare, hbytes⟩ := h.bytes_eq
  simpa [encode] using hbytes

lemma Encodes.token (h : Encodes flags tokens bytes) (token : Token) :
    Encodes (token.flag :: flags) (token :: tokens) (token.bytes ++ bytes) where
  flags_eq := by simpa using h.flags_eq
  bytes_eq := by
    obtain ⟨spare, hbytes⟩ := h.bytes_eq
    exact ⟨spare, by simpa using hbytes⟩

lemma encodes_reference (r : Reference) (flags : List Bool) :
    Encodes (false :: flags) ([] ++ [.reference r]) (reference r).bytes := by
  rw [List.nil_append, ← List.append_nil (reference r).bytes]
  exact (encodes_nil flags).token (.reference r)

lemma ofFlags_flagBits (byte : UInt8) : UInt8.ofNat (ofFlags (flagBits byte)) = byte := by
  have hall : ∀ n < 256,
      UInt8.ofNat (ofFlags (flagBits (UInt8.ofNat n))) = UInt8.ofNat n := by decide +kernel
  have hbyte := hall byte.toNat byte.toNat_lt
  rwa [UInt8.ofNat_toNat] at hbyte

/-- Tokens under the flags of a byte are a group behind this byte, and those that
are more than the flags are further groups. -/
lemma Encodes.group (h : Encodes (flagBits byte) tokens bytes) (hne : tokens ≠ []) :
    Encodes [] tokens (byte :: bytes) where
  flags_eq := by simp
  bytes_eq := by
    obtain ⟨spare, hbytes⟩ := h.bytes_eq
    have hflags := h.flags_eq
    rw [length_flagBits] at hbytes hflags
    by_cases hlast : tokens.length ≤ 8
    · have hgroup : groupFlags byte (tokens.take 8) = flagBits byte := by
        rw [groupFlags, hflags, List.length_take, Nat.min_eq_right hlast, List.take_append_drop]
      have hdrop : tokens.drop 8 = [] := List.drop_eq_nil_of_le hlast
      refine ⟨byte, ?_⟩
      rw [List.length_nil, List.take_zero, List.drop_zero, encode_of_ne_nil byte hne, hgroup,
        ofFlags_flagBits, hbytes, hdrop]
      simp [encode]
    · have htake : (tokens.take 8).length = 8 := by
        rw [List.length_take]
        omega
      have hfull : (flagBits byte).take tokens.length = flagBits byte := by
        apply List.take_of_length_le
        rw [length_flagBits]
        omega
      have hgroup : groupFlags spare (tokens.take 8) = flagBits byte := by
        rw [groupFlags, hflags, hfull, htake, List.drop_of_length_le (Nat.le_refl 8),
          List.append_nil]
      refine ⟨spare, ?_⟩
      rw [List.length_nil, List.take_zero, List.drop_zero, encode_of_ne_nil spare hne, hgroup,
        ofFlags_flagBits, hbytes]
      rfl

/-- Where no flags are pending the bytes are those that an encoder writes. -/
lemma Encodes.exists_encode (h : Encodes [] tokens bytes) :
    ∃ spare, bytes = encode spare tokens := by
  obtain ⟨spare, hbytes⟩ := h.bytes_eq
  exact ⟨spare, by simpa using hbytes⟩

end Encodes

/-- What the reader finds in a source that it reads under pending flags, with some
content made before: tokens that fill the content, or tokens and no bytes for
another one, or tokens and then a reference that does not belong there. -/
inductive Finds (total size : ℕ) (flags : List Bool) (source content : Bytes) :
    Except Error (Array UInt8) → Prop
  | full {tokens : List Token} {bytes rest : Bytes} {out : Array UInt8}
      (encodes : Encodes flags tokens bytes) (source_eq : source = bytes ++ rest)
      (valid : ValidFrom content.length tokens) (size_eq : out.size = size)
      (out_eq : out.toList = (tokens.foldl expandOnto content).take size) :
      Finds total size flags source content (.ok out)
  | exhausted {tokens : List Token} {bytes rest : Bytes} {out : Array UInt8}
      (encodes : Encodes flags tokens bytes) (source_eq : source = bytes ++ rest)
      (valid : ValidFrom content.length tokens) (size_lt : out.size < size)
      (out_eq : out.toList = tokens.foldl expandOnto content)
      (rest_eq : rest = [] ∨ rest.length = 1 ∧ flags.length ≤ tokens.length) :
      Finds total size flags source content (.ok out)
  | tooFar {tokens : List Token} {r : Reference} {bytes rest : Bytes}
      (encodes : Encodes flags (tokens ++ [.reference r]) bytes)
      (source_eq : source = bytes ++ rest) (valid : ValidFrom content.length tokens)
      (size_lt : (tokens.foldl expandOnto content).length < size)
      (far : (tokens.foldl expandOnto content).length < r.distance) :
      Finds total size flags source content
        (.error (.badReference r.distance (tokens.foldl expandOnto content).length))
  | cut {tokens : List Token} {r : Reference} {missing : Bytes}
      (encodes : Encodes flags (tokens ++ [.reference r]) (source ++ missing))
      (valid : ValidFrom content.length tokens)
      (size_lt : (tokens.foldl expandOnto content).length < size)
      (missing_ne : missing ≠ []) (missing_lt : missing.length < (reference r).bytes.length) :
      Finds total size flags source content (.error (.truncated total))

section Finds

variable {total size : ℕ} {flags : List Bool} {source content : Bytes}
  {result : Except Error (Array UInt8)}

lemma validFrom_cons {token : Token} {tokens : List Token}
    (hfirst : ValidFrom content.length [token])
    (h : ValidFrom (expandOnto content token).length tokens) :
    ValidFrom content.length (token :: tokens) := by
  rw [length_expandOnto] at h
  cases token with
  | literal byte => exact h
  | reference r => exact ⟨hfirst.1, h⟩

/-- What is found behind a token is found with the token in front. -/
theorem Finds.token {token : Token} (hvalid : ValidFrom content.length [token])
    (h : Finds total size flags source (expandOnto content token) result) :
    Finds total size (token.flag :: flags) (token.bytes ++ source) content result := by
  cases h with
  | full encodes source_eq valid size_eq out_eq =>
    exact .full (encodes.token token) (by rw [source_eq, List.append_assoc])
      (validFrom_cons hvalid valid) size_eq out_eq
  | exhausted encodes source_eq valid size_lt out_eq rest_eq =>
    refine .exhausted (encodes.token token) (by rw [source_eq, List.append_assoc])
      (validFrom_cons hvalid valid) size_lt out_eq ?_
    simpa using rest_eq
  | @tooFar tokens r bytes rest encodes source_eq valid size_lt far =>
    have hencodes : Encodes (token.flag :: flags) (token :: tokens ++ [.reference r])
        (token.bytes ++ bytes) := encodes.token token
    exact .tooFar hencodes (by rw [source_eq, List.append_assoc]) (validFrom_cons hvalid valid)
      size_lt far
  | @cut tokens r missing encodes valid size_lt missing_ne missing_lt =>
    have hencodes : Encodes (token.flag :: flags) (token :: tokens ++ [.reference r])
        (token.bytes ++ source ++ missing) := by
      rw [List.append_assoc]
      exact encodes.token token
    exact .cut hencodes (validFrom_cons hvalid valid) size_lt missing_ne missing_lt

/-- What is found under the flags of a byte is found behind the byte. -/
theorem Finds.group {byte : UInt8} (hlt : content.length < size)
    (h : Finds total size (flagBits byte) source content result) :
    Finds total size [] (byte :: source) content result := by
  cases h with
  | @full tokens bytes rest out encodes source_eq valid size_eq out_eq =>
    have hne : tokens ≠ [] := by
      rintro rfl
      have hlength := congrArg List.length out_eq
      rw [Array.length_toList, List.length_take, List.foldl_nil] at hlength
      omega
    exact .full (encodes.group hne) (by rw [source_eq, List.cons_append]) valid size_eq out_eq
  | @exhausted tokens bytes rest out encodes source_eq valid size_lt out_eq rest_eq =>
    by_cases hne : tokens = []
    · subst hne
      have hrest : rest = [] := by
        rcases rest_eq with h | h
        · exact h
        · have := h.2
          rw [length_flagBits, List.length_nil] at this
          omega
      rw [source_eq, encodes.eq_nil, hrest]
      exact .exhausted (encodes_nil []) rfl valid size_lt out_eq (.inr ⟨rfl, Nat.zero_le _⟩)
    · refine .exhausted (encodes.group hne) (by rw [source_eq, List.cons_append]) valid size_lt
        out_eq ?_
      rcases rest_eq with h | h
      · exact .inl h
      · exact .inr ⟨h.1, Nat.zero_le _⟩
  | tooFar encodes source_eq valid size_lt far =>
    exact .tooFar (encodes.group (by simp)) (by rw [source_eq, List.cons_append]) valid size_lt far
  | cut encodes valid size_lt missing_ne missing_lt =>
    exact .cut (encodes.group (by simp)) valid size_lt missing_ne missing_lt

variable {out out' : Array UInt8}

lemma repeatBack_eq_ok {distance length : ℕ} (h : repeatBack size distance length out = .ok out') :
    distance ≤ out.size ∧ out' = copyBack distance (min length (size - out.size)) out := by
  unfold repeatBack at h
  split at h
  · cases h
  · cases h
    exact ⟨by omega, rfl⟩

lemma repeatBack_eq_error {distance length : ℕ} {e : Error}
    (h : repeatBack size distance length out = .error e) :
    out.size < distance ∧ e = .badReference distance out.size := by
  unfold repeatBack at h
  split at h
  · cases h
    exact ⟨by assumption, rfl⟩
  · cases h

/-- What is found behind a reference that has been repeated. -/
theorem Finds.repeated {r : Reference} (hlt : out.size < size)
    (hrepeat : repeatBack size r.distance r.length out = .ok out')
    (h : out'.size ≤ size →
      Finds total size flags source out'.toList (readTokens total size flags source out')) :
    Finds total size (false :: flags) ((reference r).bytes ++ source) out.toList
      (readTokens total size flags source out') := by
  obtain ⟨hle, rfl⟩ := repeatBack_eq_ok hrepeat
  have hvalid : ValidFrom out.toList.length [.reference r] := ⟨hle, trivial⟩
  by_cases hfull : size ≤ out.size + r.length
  · have hsize : (copyBack r.distance (min r.length (size - out.size)) out).size = size := by
      rw [size_copyBack]
      omega
    rw [readTokens_of_size_le (Nat.le_of_eq hsize.symm)]
    refine .full (encodes_reference r flags) rfl hvalid hsize ?_
    rw [toList_copyBack, List.nil_append, List.foldl_cons, List.foldl_nil, expandOnto,
      take_repeated r.distance r.length (Nat.le_of_lt hlt), Array.length_toList]
  · have hmin : min r.length (size - out.size) = r.length := by omega
    rw [hmin] at h ⊢
    have hlist : (copyBack r.distance r.length out).toList =
        expandOnto out.toList (.reference r) := toList_copyBack r.distance r.length out
    rw [hlist, size_copyBack] at h
    exact (h (by omega)).token hvalid

/-- What is found at a reference that reaches too far back. -/
theorem Finds.notRepeated {r : Reference} {e : Error} (hlt : out.size < size)
    (hrepeat : repeatBack size r.distance r.length out = .error e) :
    Finds total size (false :: flags) ((reference r).bytes ++ source) out.toList (.error e) := by
  obtain ⟨hfar, rfl⟩ := repeatBack_eq_error hrepeat
  exact .tooFar (encodes_reference r flags) rfl trivial hlt hfar

/-- What is found where the source ends inside a reference. -/
theorem Finds.ends {r : Reference} {missing : Bytes} (hlt : out.size < size)
    (hbytes : (reference r).bytes = source ++ missing) (hsource : source ≠ [])
    (hmissing : missing ≠ []) :
    Finds total size (false :: flags) source out.toList (.error (.truncated total)) := by
  have hencodes : Encodes (false :: flags) ([] ++ [.reference r]) (source ++ missing) := by
    rw [← hbytes]
    exact encodes_reference r flags
  refine .cut hencodes trivial hlt hmissing ?_
  have := List.length_pos_iff.mpr hsource
  rw [hbytes, List.length_append]
  omega

/-- A byte that opens a reference is not the whole of it. -/
lemma exists_reference_cons (b0 : UInt8) :
    ∃ (r : Reference) (missing : Bytes), (reference r).bytes = [b0] ++ missing ∧ missing ≠ [] := by
  by_cases hb : b0.toNat / 16 = 0
  · exact ⟨_, [0, 0], bytes_ofThreeBytes b0 0 0 hb, by simp⟩
  · exact ⟨_, [0], bytes_ofTwoBytes b0 0 hb, by simp⟩

theorem Finds.filled (hle : out.size ≤ size) (hfull : size ≤ out.size) :
    Finds total size flags source out.toList (.ok out) := by
  have hsize : out.size = size := Nat.le_antisymm hle hfull
  refine .full (encodes_nil flags) (List.nil_append source).symm trivial hsize ?_
  rw [List.foldl_nil, List.take_of_length_le]
  rw [Array.length_toList]
  exact hle

/-- The reader finds in its source what it answers. -/
theorem finds_readTokens (h : out.size ≤ size) :
    Finds total size flags source out.toList (readTokens total size flags source out) := by
  fun_induction readTokens total size flags source out with
  | case1 flags out =>
    by_cases hfull : size ≤ out.size
    · exact .filled h hfull
    · have hsource : ([] : Bytes) = [] ++ [] := rfl
      exact .exhausted (encodes_nil flags) hsource trivial (by omega) rfl (.inl rfl)
  | case2 group source out hfull => exact .filled h hfull
  | case3 group source out hlt ih => exact (ih h).group (Nat.lt_of_not_le hlt)
  | case4 flags byte source out hfull => exact .filled h hfull
  | case5 flags byte source out hlt ih =>
    have hpush : (out.push byte).size ≤ size := by
      rw [Array.size_push]
      omega
    have hnext := ih hpush
    have hvalid : ValidFrom out.toList.length [.literal byte] := trivial
    rw [Array.toList_push] at hnext
    exact Finds.token hvalid hnext
  | case6 flags b0 out hfull => exact .filled h hfull
  | case7 flags b0 out hlt =>
    obtain ⟨r, missing, hbytes, hmissing⟩ := exists_reference_cons b0
    exact .ends (Nat.lt_of_not_le hlt) hbytes (by simp) hmissing
  | case8 flags b0 b1 source out hfull => exact .filled h hfull
  | case9 flags b0 b1 out hlt hlong =>
    have hbytes : (reference (.ofThreeBytes b0 b1 0)).bytes = [b0, b1] ++ [0] :=
      bytes_ofThreeBytes b0 b1 0 hlong
    exact .ends (Nat.lt_of_not_le hlt) hbytes (by simp) (by simp)
  | case10 flags b0 b1 out hlt hlong b2 source out' hrepeat ih =>
    have hnext := Finds.repeated (r := .ofThreeBytes b0 b1 b2) (Nat.lt_of_not_le hlt) hrepeat ih
    rwa [bytes_ofThreeBytes b0 b1 b2 hlong] at hnext
  | case11 flags b0 b1 out hlt hlong b2 source e hrepeat =>
    have hfar : Finds total size (false :: flags)
        ((reference (.ofThreeBytes b0 b1 b2)).bytes ++ source) out.toList (.error e) :=
      .notRepeated (Nat.lt_of_not_le hlt) hrepeat
    rwa [bytes_ofThreeBytes b0 b1 b2 hlong] at hfar
  | case12 flags b0 b1 source out hlt hshort out' hrepeat ih =>
    have hnext := Finds.repeated (r := .ofTwoBytes b0 b1 hshort) (Nat.lt_of_not_le hlt) hrepeat ih
    rwa [bytes_ofTwoBytes b0 b1 hshort] at hnext
  | case13 flags b0 b1 source out hlt hshort e hrepeat =>
    have hfar : Finds total size (false :: flags)
        ((reference (.ofTwoBytes b0 b1 hshort)).bytes ++ source) out.toList (.error e) :=
      .notRepeated (Nat.lt_of_not_le hlt) hrepeat
    rwa [bytes_ofTwoBytes b0 b1 hshort] at hfar

end Finds

/-- The bytes are a header that declares a size. -/
def IsHeader (size : ℕ) (header : Bytes) : Prop :=
  size < 2 ^ 32 ∧ ∃ magic ∈ magics, ∃ reserved : Bytes, reserved.length = 8 ∧
    header = magic ++ Bytes.ofNat 4 size ++ reserved

/-- What the result of decompression tells of a file: it is too short for a header;
it has no magic word; it encodes tokens of a content of the declared size; it
encodes tokens of less content and then a reference that reaches too far back, or
the first bytes of a reference, or at most one byte more. -/
inductive Tells (file : Bytes) : Except Error Bytes → Prop
  | tooShort (short : file.length < headerSize) :
      Tells file (.error (.truncated file.length))
  | noMagic (long : headerSize ≤ file.length) (no_magic : file.take 4 ∉ magics) :
      Tells file (.error (.badMagic (file.take 4)))
  | content {header trailing content : Bytes} {tokens : List Token} {spare : UInt8}
      (is_header : IsHeader content.length header) (valid : Valid tokens)
      (file_eq : file = header ++ encode spare tokens ++ trailing)
      (content_eq : content = (expand tokens).take content.length) :
      Tells file (.ok content)
  | tooFar {size : ℕ} {header trailing : Bytes} {tokens : List Token} {r : Reference}
      {spare : UInt8} (is_header : IsHeader size header) (valid : Valid tokens)
      (file_eq : file = header ++ encode spare (tokens ++ [.reference r]) ++ trailing)
      (size_lt : (expand tokens).length < size) (far : (expand tokens).length < r.distance) :
      Tells file (.error (.badReference r.distance (expand tokens).length))
  | cut {size : ℕ} {header missing : Bytes} {tokens : List Token} {r : Reference} {spare : UInt8}
      (is_header : IsHeader size header) (valid : Valid tokens)
      (file_eq : file ++ missing = header ++ encode spare (tokens ++ [.reference r]))
      (missing_ne : missing ≠ []) (missing_lt : missing.length < (reference r).bytes.length)
      (size_lt : (expand tokens).length < size) :
      Tells file (.error (.truncated file.length))
  | exhausted {size : ℕ} {header rest : Bytes} {tokens : List Token} {spare : UInt8}
      (is_header : IsHeader size header) (valid : Valid tokens)
      (file_eq : file = header ++ encode spare tokens ++ rest) (rest_le : rest.length ≤ 1)
      (size_lt : (expand tokens).length < size) :
      Tells file (.error (.sizeMismatch size (expand tokens).length))

section Header

variable {file : Bytes}

/-- A file that declares a size opens with a header. -/
theorem declaredSize_eq_ok {size : ℕ} (h : declaredSize file = .ok size) :
    ∃ header, IsHeader size header ∧ file = header ++ file.drop headerSize := by
  unfold declaredSize at h
  split at h
  · cases h
  · split at h
    · next hlong hmagic =>
      cases h
      have hlength : 16 ≤ file.length := Nat.le_of_not_lt hlong
      have hsize : (file.extract 4 8).length = 4 := by
        rw [List.extract_eq_take_drop, List.length_take, List.length_drop]
        omega
      have hbytes := Bytes.ofNat_toNat (file.extract 4 8)
      have hlt := Bytes.toNat_lt (file.extract 4 8)
      rw [hsize] at hbytes hlt
      refine ⟨file.take headerSize, ⟨hlt, file.take 4, List.contains_iff_mem.mp hmagic,
        file.extract 8 16, ?_, ?_⟩, (List.take_append_drop headerSize file).symm⟩
      · rw [List.extract_eq_take_drop, List.length_take, List.length_drop]
        omega
      · rw [hbytes, List.extract_eq_take_drop, List.extract_eq_take_drop, ← List.take_add,
          ← List.take_add]
        rfl
    · cases h

lemma tells_of_declaredSize_eq_error {e : Error} (h : declaredSize file = .error e) :
    Tells file (.error e) := by
  unfold declaredSize at h
  split at h
  · next hshort =>
    cases h
    exact .tooShort hshort
  · split at h
    · cases h
    · next hlong hmagic =>
      cases h
      refine .noMagic (Nat.le_of_not_lt hlong) ?_
      rwa [isCompressed, List.contains_iff_mem] at hmagic

/-- The result of decompression tells what the reader found behind the header. -/
theorem tells_decompress (file : Bytes) : Tells file (decompress file) := by
  unfold decompress
  cases hsize : declaredSize file with
  | error e => exact tells_of_declaredSize_eq_error hsize
  | ok size =>
    obtain ⟨header, hheader, hfile⟩ := declaredSize_eq_ok hsize
    have hempty : (#[] : Array UInt8).size ≤ size := Nat.zero_le size
    have hfinds : Finds file.length size [] (file.drop headerSize) []
        (readTokens file.length size [] (file.drop headerSize) #[]) := finds_readTokens hempty
    simp only [bind, Except.bind]
    generalize readTokens file.length size [] (file.drop headerSize) #[] = result at hfinds ⊢
    generalize file.drop headerSize = source at hfinds hfile
    cases hfinds with
    | @full tokens bytes rest out encodes source_eq valid size_eq out_eq =>
      obtain ⟨spare, hbytes⟩ := encodes.exists_encode
      have hlength : out.toList.length = size := by rw [Array.length_toList, size_eq]
      simp only [if_pos size_eq]
      rw [← hlength] at hheader out_eq
      have hparts : file = header ++ encode spare tokens ++ rest := by
        rw [List.append_assoc, ← hbytes, ← source_eq]
        exact hfile
      exact .content hheader valid hparts out_eq
    | @exhausted tokens bytes rest out encodes source_eq valid size_lt out_eq rest_eq =>
      obtain ⟨spare, hbytes⟩ := encodes.exists_encode
      have hlength : out.size = (expand tokens).length := by
        rw [← Array.length_toList, out_eq]
        rfl
      simp only [if_neg (Nat.ne_of_lt size_lt)]
      rw [hlength] at size_lt ⊢
      have hparts : file = header ++ encode spare tokens ++ rest := by
        rw [List.append_assoc, ← hbytes, ← source_eq]
        exact hfile
      have hrest : rest.length ≤ 1 := by
        rcases rest_eq with rfl | h
        · exact Nat.zero_le 1
        · exact Nat.le_of_eq h.1
      exact .exhausted hheader valid hparts hrest size_lt
    | @tooFar tokens r bytes rest encodes source_eq valid size_lt far =>
      obtain ⟨spare, hbytes⟩ := encodes.exists_encode
      have hparts : file = header ++ encode spare (tokens ++ [.reference r]) ++ rest := by
        rw [List.append_assoc, ← hbytes, ← source_eq]
        exact hfile
      exact .tooFar hheader valid hparts size_lt far
    | @cut tokens r missing encodes valid size_lt missing_ne missing_lt =>
      obtain ⟨spare, hbytes⟩ := encodes.exists_encode
      have hparts : file ++ missing = header ++ encode spare (tokens ++ [.reference r]) := by
        rw [← hbytes, ← List.append_assoc, ← hfile]
      exact .cut hheader valid hparts missing_ne missing_lt size_lt

end Header

/-- Decompression accepts nothing but compressed files and gives a content of the
size that they declare; where it fails, it fails at the place where the file stops to
be one. On the way no index is out of bounds and no difference is negative. -/
theorem decompress?_eq_and_tells (file : Bytes) :
    Offsets.decompress? file = some (decompress file) ∧ Tells file (decompress file) :=
  ⟨Offsets.decompress?_eq file, tells_decompress file⟩

end Cartridge.Yaz0
