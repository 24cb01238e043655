import Cartridge.Proofs.Bytes.Numbers
import Cartridge.Yaz0

/-!
# Reading what an encoder writes

What a compressed file says is a list of tokens, each a byte of content or a
reference to content further back. The content is what the tokens expand to, one
byte after the other, so that a reference may repeat bytes of its own.

An encoder writes the tokens in groups of eight behind a byte of flags. Where
the last group has fewer tokens, its last flags mean nothing; they are taken
from a spare byte, so that they may be any.

A source spells tokens under the flags that are pending, and may go on with
anything behind them. The reader follows the tokens one by one; what it has
produced is at any time the content of the tokens behind it. Where the content
reaches its size inside a reference, the reference is cut.
-/
namespace Cartridge.Yaz0

/-- A reference within the bounds of the format. -/
structure Reference where
  distance : ℕ
  length : ℕ
  one_le_distance : 1 ≤ distance
  distance_le : distance ≤ 4096
  three_le_length : 3 ≤ length
  length_le : length ≤ 273

/-- A byte of content, or a repetition of content. -/
inductive Token
  | literal (byte : UInt8)
  | reference (r : Reference)

/-- The content with `n` more bytes, each equal to the one `distance` places before it. -/
def repeated (distance : ℕ) : ℕ → Bytes → Bytes
  | 0, content => content
  | n + 1, content =>
    repeated distance n (content ++ [content.getD (content.length - distance) 0])

namespace Token

/-- The number of bytes that a token adds to the content. -/
def size : Token → ℕ
  | literal _ => 1
  | reference r => r.length

/-- The flag that announces a token. -/
def flag : Token → Bool
  | literal _ => true
  | reference _ => false

/-- The content behind a token. -/
def expandOnto (content : Bytes) : Token → Bytes
  | literal byte => content ++ [byte]
  | reference r => repeated r.distance r.length content

/-- The bytes of a token. A short length has four bits, a long one a byte of its own. -/
def bytes : Token → Bytes
  | literal byte => [byte]
  | reference r =>
    let high := (r.distance - 1) / 256
    let low := UInt8.ofNat ((r.distance - 1) % 256)
    if r.length ≤ 17 then [UInt8.ofNat ((r.length - 2) * 16 + high), low]
    else [UInt8.ofNat high, low, UInt8.ofNat (r.length - 0x12)]

/-- References of the tokens reach no further back than the content, of which
there are `produced` bytes in front of the tokens. -/
def ValidFrom (produced : ℕ) : List Token → Prop
  | [] => True
  | literal _ :: tokens => ValidFrom (produced + 1) tokens
  | reference r :: tokens => r.distance ≤ produced ∧ ValidFrom (produced + r.length) tokens

/-- References reach no further back than the content that was there before. -/
def Valid (tokens : List Token) : Prop := ValidFrom 0 tokens

/-- The content that tokens make. -/
def expand (tokens : List Token) : Bytes := tokens.foldl expandOnto []

/-- The number whose bits are the flags, the first of them on top. -/
def ofFlags (flags : List Bool) : ℕ := flags.foldl (fun n flag => 2 * n + flag.toNat) 0

/-- The flags of a group, filled up with the lowest bits of a spare byte. -/
def groupFlags (spare : UInt8) (group : List Token) : List Bool :=
  group.map flag ++ (flagBits spare).drop group.length

/-- The bytes of tokens, in groups of eight behind their flags. -/
def encode (spare : UInt8) : List Token → Bytes
  | [] => []
  | token :: tokens =>
    let group := (token :: tokens).take 8
    UInt8.ofNat (ofFlags (groupFlags spare group)) ::
      (group.flatMap bytes ++ encode spare ((token :: tokens).drop 8))
  termination_by tokens => tokens.length
  decreasing_by
    simp only [List.length_drop, List.length_cons]
    omega

lemma encode_of_ne_nil (spare : UInt8) {tokens : List Token} (h : tokens ≠ []) :
    encode spare tokens =
      UInt8.ofNat (ofFlags (groupFlags spare (tokens.take 8))) ::
        ((tokens.take 8).flatMap bytes ++ encode spare (tokens.drop 8)) := by
  cases tokens with
  | nil => exact absurd rfl h
  | cons token tokens => rw [encode]

end Token

open Token

/-- The source opens with the tokens, the first of them under the pending flags. -/
inductive Spells : List Bool → List Token → Bytes → Prop
  | done (flags : List Bool) (source : Bytes) : Spells flags [] source
  | group {token : Token} {tokens : List Token} {source : Bytes} (byte : UInt8)
      (h : Spells (flagBits byte) (token :: tokens) source) :
      Spells [] (token :: tokens) (byte :: source)
  | token {flags : List Bool} {tokens : List Token} {source : Bytes} (token : Token)
      (h : Spells flags tokens source) :
      Spells (token.flag :: flags) (token :: tokens) (token.bytes ++ source)

lemma length_flagBits (byte : UInt8) : (flagBits byte).length = 8 := rfl

lemma flagBits_ofFlags : ∀ {flags : List Bool}, flags.length = 8 →
    flagBits (UInt8.ofNat (ofFlags flags)) = flags
  | [a, b, c, d, e, f, g, h], _ => by
    revert a b c d e f g h
    decide

lemma Spells.append_group {flags : List Bool} {rest : List Token} {source : Bytes}
    (h : Spells flags rest source) (group : List Token) :
    Spells (group.map flag ++ flags) (group ++ rest) (group.flatMap bytes ++ source) := by
  induction group with
  | nil => exact h
  | cons token group ih =>
    rw [List.flatMap_cons, List.append_assoc]
    exact .token token ih

/-- Behind a group without eight tokens there are no more. -/
lemma drop_flagBits (spare : UInt8) {tokens : List Token} (h : tokens.drop 8 ≠ []) :
    (flagBits spare).drop (tokens.take 8).length = [] := by
  have hlength : 8 < tokens.length := by
    apply Nat.lt_of_not_le
    intro hle
    exact h (List.drop_eq_nil_of_le hle)
  rw [List.length_take, Nat.min_eq_left (by omega)]
  rfl

/-- An encoder spells its tokens. -/
theorem spells_encode (spare : UInt8) (tokens : List Token) (trailing : Bytes) :
    Spells [] tokens (encode spare tokens ++ trailing) := by
  by_cases hnil : tokens = []
  · rw [hnil]
    exact .done [] _
  · have hrest : Spells ((flagBits spare).drop (tokens.take 8).length) (tokens.drop 8)
        (encode spare (tokens.drop 8) ++ trailing) := by
      by_cases hdrop : tokens.drop 8 = []
      · rw [hdrop]
        exact .done _ _
      · rw [drop_flagBits spare hdrop]
        exact spells_encode spare (tokens.drop 8) trailing
    have h := hrest.append_group (tokens.take 8)
    rw [List.take_append_drop] at h
    have hflags : (groupFlags spare (tokens.take 8)).length = 8 := by
      rw [groupFlags, List.length_append, List.length_map, List.length_drop, List.length_take,
        length_flagBits]
      omega
    obtain ⟨token, others, rfl⟩ := List.exists_cons_of_ne_nil hnil
    rw [encode_of_ne_nil spare hnil, List.cons_append, List.append_assoc]
    refine .group _ ?_
    rw [flagBits_ofFlags hflags]
    exact h
  termination_by tokens.length
  decreasing_by
    have := List.length_pos_iff.mpr hnil
    simp only [List.length_drop]
    omega

section Content

@[simp] theorem length_repeated (distance n : ℕ) (content : Bytes) :
    (repeated distance n content).length = content.length + n := by
  induction n generalizing content with
  | zero => rfl
  | succ n ih =>
    rw [repeated, ih, List.length_append, List.length_singleton]
    omega

theorem prefix_repeated (distance n : ℕ) (content : Bytes) :
    content <+: repeated distance n content := by
  induction n generalizing content with
  | zero => exact List.prefix_refl content
  | succ n ih =>
    rw [repeated]
    exact (List.prefix_append content _).trans (ih _)

/-- A repetition that is cut is a shorter repetition. -/
theorem take_repeated {size : ℕ} (distance n : ℕ) {content : Bytes} (h : content.length ≤ size) :
    (repeated distance n content).take size =
      repeated distance (min n (size - content.length)) content := by
  induction n generalizing content with
  | zero =>
    rw [Nat.zero_min]
    exact List.take_of_length_le h
  | succ n ih =>
    by_cases hlt : content.length < size
    · have hlen : (content ++ [content.getD (content.length - distance) 0]).length ≤ size := by
        rw [List.length_append, List.length_singleton]
        exact hlt
      have hmin : min (n + 1) (size - content.length) =
          min n (size - (content.length + 1)) + 1 := by omega
      rw [repeated, ih hlen, List.length_append, List.length_singleton, hmin, repeated]
    · obtain ⟨rest, hrest⟩ := prefix_repeated distance (n + 1) content
      have hsize : size = content.length := by omega
      rw [hsize, Nat.sub_self, Nat.min_zero, repeated, ← hrest, List.take_left]

theorem toList_copyBack (distance n : ℕ) (out : Array UInt8) :
    (copyBack distance n out).toList = repeated distance n out.toList := by
  induction n generalizing out with
  | zero => rfl
  | succ n ih =>
    rw [copyBack, ih, repeated, Array.toList_push, Array.length_toList]
    simp [Array.getD_eq_getD_getElem?, List.getD_eq_getElem?_getD]

theorem prefix_expandOnto (content : Bytes) (token : Token) :
    content <+: expandOnto content token := by
  cases token with
  | literal byte => exact List.prefix_append content [byte]
  | reference r => exact prefix_repeated r.distance r.length content

theorem prefix_foldl_expandOnto (content : Bytes) (tokens : List Token) :
    content <+: tokens.foldl expandOnto content := by
  induction tokens generalizing content with
  | nil => exact List.prefix_refl content
  | cons token tokens ih => exact (prefix_expandOnto content token).trans (ih _)

theorem length_expandOnto (content : Bytes) (token : Token) :
    (expandOnto content token).length = content.length + token.size := by
  cases token with
  | literal byte => exact List.length_append
  | reference r => exact length_repeated r.distance r.length content

/-- Content of some size is not changed by tokens behind it. -/
theorem take_foldl_expandOnto {size : ℕ} {content : Bytes} (h : size ≤ content.length)
    (tokens : List Token) : (tokens.foldl expandOnto content).take size = content.take size := by
  obtain ⟨rest, hrest⟩ := prefix_foldl_expandOnto content tokens
  rw [← hrest, List.take_append_of_le_length h]

end Content

section Reading

variable {total size : ℕ} {flags : List Bool} {source : Bytes} {out : Array UInt8}

theorem readTokens_of_size_le (h : size ≤ out.size) :
    readTokens total size flags source out = .ok out := by
  unfold readTokens
  split
  · rfl
  all_goals rw [if_pos h]

theorem readTokens_group (h : out.size < size) (byte : UInt8) :
    readTokens total size [] (byte :: source) out =
      readTokens total size (flagBits byte) source out := by
  rw [readTokens, if_neg (Nat.not_le_of_lt h)]

theorem readTokens_literal (h : out.size < size) (byte : UInt8) :
    readTokens total size (true :: flags) (byte :: source) out =
      readTokens total size flags source (out.push byte) := by
  rw [readTokens, if_neg (Nat.not_le_of_lt h)]

theorem repeatBack_of_le {distance : ℕ} (h : distance ≤ out.size) (length : ℕ) :
    repeatBack size distance length out =
      .ok (copyBack distance (min length (size - out.size)) out) := by
  rw [repeatBack, if_neg (Nat.not_lt_of_le h)]

/-- A reference of two bytes has its length in the upper half of the first. -/
theorem readTokens_short (h : out.size < size) {b0 b1 : UInt8} (hb : b0.toNat / 16 ≠ 0)
    (hd : distanceOf b0 b1 ≤ out.size) :
    readTokens total size (false :: flags) (b0 :: b1 :: source) out =
      readTokens total size flags source
        (copyBack (distanceOf b0 b1) (min (b0.toNat / 16 + 2) (size - out.size)) out) := by
  cases source <;>
    simp only [readTokens, if_neg (Nat.not_le_of_lt h), if_neg hb, repeatBack_of_le hd]

/-- A reference of three bytes has its length in the third. -/
theorem readTokens_long (h : out.size < size) {b0 b1 b2 : UInt8} (hb : b0.toNat / 16 = 0)
    (hd : distanceOf b0 b1 ≤ out.size) :
    readTokens total size (false :: flags) (b0 :: b1 :: b2 :: source) out =
      readTokens total size flags source
        (copyBack (distanceOf b0 b1) (min (b2.toNat + 0x12) (size - out.size)) out) := by
  simp only [readTokens, if_neg (Nat.not_le_of_lt h), if_pos hb, repeatBack_of_le hd]

theorem readTokens_reference (h : out.size < size) (r : Reference) (hd : r.distance ≤ out.size) :
    readTokens total size (false :: flags) ((Token.reference r).bytes ++ source) out =
      readTokens total size flags source
        (copyBack r.distance (min r.length (size - out.size)) out) := by
  obtain ⟨distance, length, hpos, hle, h3, h273⟩ := r
  have hlow := UInt8.toNat_ofNat_of_lt' (show (distance - 1) % 256 < 256 by omega)
  simp only [Token.bytes] at hd ⊢
  split
  · have hhigh := UInt8.toNat_ofNat_of_lt'
      (show (length - 2) * 16 + (distance - 1) / 256 < 256 by omega)
    have hdistance : distanceOf (UInt8.ofNat ((length - 2) * 16 + (distance - 1) / 256))
        (UInt8.ofNat ((distance - 1) % 256)) = distance := by
      rw [distanceOf, hhigh, hlow]
      omega
    have hlength : ((length - 2) * 16 + (distance - 1) / 256) / 16 + 2 = length := by omega
    rw [List.cons_append, List.cons_append, List.nil_append,
      readTokens_short h (by omega) (by omega), hdistance, hhigh, hlength]
  · have hhigh := UInt8.toNat_ofNat_of_lt' (show (distance - 1) / 256 < 256 by omega)
    have hthird := UInt8.toNat_ofNat_of_lt' (show length - 0x12 < 256 by omega)
    have hdistance : distanceOf (UInt8.ofNat ((distance - 1) / 256))
        (UInt8.ofNat ((distance - 1) % 256)) = distance := by
      rw [distanceOf, hhigh, hlow]
      omega
    have hlength : length - 0x12 + 0x12 = length := by omega
    rw [List.cons_append, List.cons_append, List.cons_append, List.nil_append,
      readTokens_long h (by omega) (by omega), hdistance, hthird, hlength]

/-- Reading a source that spells tokens gives the content they make, up to the size. -/
theorem readTokens_of_spells (total : ℕ) {tokens : List Token} (h : Spells flags tokens source)
    (valid : ValidFrom out.size tokens) (hle : out.size ≤ size)
    (hsize : size ≤ (tokens.foldl expandOnto out.toList).length) :
    ∃ result, readTokens total size flags source out = .ok result ∧
      result.toList = (tokens.foldl expandOnto out.toList).take size := by
  induction h generalizing out with
  | done flags source =>
    exact ⟨out, readTokens_of_size_le hsize, (List.take_of_length_le hle).symm⟩
  | group byte h ih =>
    by_cases hfull : size ≤ out.size
    · refine ⟨out, readTokens_of_size_le hfull, ?_⟩
      rw [take_foldl_expandOnto hfull, List.take_of_length_le hle]
    · rw [readTokens_group (Nat.lt_of_not_le hfull)]
      exact ih valid hle hsize
  | token token h ih =>
    by_cases hfull : size ≤ out.size
    · refine ⟨out, readTokens_of_size_le hfull, ?_⟩
      rw [take_foldl_expandOnto hfull, List.take_of_length_le hle]
    · have hlt := Nat.lt_of_not_le hfull
      cases token with
      | literal byte =>
        have hpush : (out.push byte).size = out.size + 1 := out.size_push byte
        have hlist : (out.push byte).toList = expandOnto out.toList (.literal byte) :=
          Array.toList_push
        have hih := ih (by rwa [hpush]) (by omega) (by rwa [hlist])
        rw [hlist] at hih
        obtain ⟨result, hread, hresult⟩ := hih
        exact ⟨result, (readTokens_literal hlt byte).trans hread, hresult⟩
      | reference r =>
        obtain ⟨hd, hvalid⟩ := valid
        rw [Token.flag, readTokens_reference hlt r hd]
        by_cases hcut : size ≤ out.size + r.length
        · have hmin : out.size + min r.length (size - out.size) = size := by omega
          have hnext : size ≤ (copyBack r.distance (min r.length (size - out.size)) out).size := by
            rw [size_copyBack]
            exact Nat.le_of_eq hmin.symm
          refine ⟨_, readTokens_of_size_le hnext, ?_⟩
          have hlength : size ≤ (expandOnto out.toList (.reference r)).length := by
            rw [length_expandOnto]
            exact hcut
          rw [List.foldl_cons, take_foldl_expandOnto hlength, expandOnto, toList_copyBack,
            take_repeated r.distance r.length hle]
          rfl
        · have hmin : min r.length (size - out.size) = r.length := by omega
          have hlist : (copyBack r.distance r.length out).toList =
              expandOnto out.toList (.reference r) := toList_copyBack r.distance r.length out
          have hnext : (copyBack r.distance r.length out).size = out.size + r.length :=
            size_copyBack r.distance r.length out
          rw [← hnext] at hvalid
          have hih := ih hvalid (by omega) (by rwa [hlist])
          rw [hmin]
          rwa [hlist] at hih

end Reading

section Header

variable {magic reserved : Bytes} {n : ℕ}

lemma length_magic (h : magic ∈ magics) : magic.length = 4 := by
  have hall : ∀ m ∈ magics, m.length = 4 := by decide
  exact hall magic h

theorem declaredSize_header (hmagic : magic ∈ magics) (hn : n < 2 ^ 32)
    (hreserved : reserved.length = 8) (rest : Bytes) :
    declaredSize (magic ++ Bytes.ofNat 4 n ++ reserved ++ rest) = .ok n := by
  have hlength := length_magic hmagic
  have hlong : ¬ (magic ++ Bytes.ofNat 4 n ++ reserved ++ rest).length < headerSize := by
    simp only [List.length_append, Bytes.length_ofNat, headerSize]
    omega
  have hcompressed : isCompressed (magic ++ Bytes.ofNat 4 n ++ reserved ++ rest) = true := by
    rw [isCompressed, List.append_assoc, List.append_assoc, List.take_left' hlength]
    exact List.contains_iff_mem.mpr hmagic
  have hsize : (magic ++ Bytes.ofNat 4 n ++ reserved ++ rest).extract 4 8 = Bytes.ofNat 4 n := by
    rw [List.extract_eq_take_drop, List.append_assoc, List.append_assoc, List.drop_left' hlength,
      List.take_left' (Bytes.length_ofNat 4 n)]
  rw [declaredSize, if_neg hlong, if_pos hcompressed, hsize, Bytes.toNat_ofNat hn]

lemma drop_header (hmagic : magic ∈ magics) (hreserved : reserved.length = 8) (rest : Bytes) :
    (magic ++ Bytes.ofNat 4 n ++ reserved ++ rest).drop headerSize = rest := by
  apply List.drop_left'
  rw [List.length_append, List.length_append, Bytes.length_ofNat, length_magic hmagic, hreserved]
  rfl

end Header

/-- Decompression undoes every encoder: it gives the content of the tokens, up
to the size that the header declares. -/
theorem decompress_encode {magic reserved : Bytes} (hmagic : magic ∈ magics)
    (hreserved : reserved.length = 8) {tokens : List Token} (hvalid : Valid tokens) {n : ℕ}
    (hn : n ≤ (expand tokens).length) (hlt : n < 2 ^ 32) (spare : UInt8) (trailing : Bytes) :
    decompress (magic ++ Bytes.ofNat 4 n ++ reserved ++ encode spare tokens ++ trailing) =
      .ok ((expand tokens).take n) := by
  have hvalid' : ValidFrom (#[] : Array UInt8).size tokens := hvalid
  have hspells := spells_encode spare tokens trailing
  rw [List.append_assoc _ (encode spare tokens)]
  generalize encode spare tokens ++ trailing = payload at hspells ⊢
  obtain ⟨result, hread, hresult⟩ :=
    readTokens_of_spells (magic ++ Bytes.ofNat 4 n ++ reserved ++ payload).length hspells hvalid'
      (Nat.zero_le n) hn
  have hlist : result.toList = (expand tokens).take n := hresult
  have hsize : result.size = n := by
    rw [← Array.length_toList, hlist, List.length_take, Nat.min_eq_left hn]
  simp only [decompress, declaredSize_header hmagic hlt hreserved,
    drop_header hmagic hreserved, hread, bind, Except.bind, if_pos hsize, hlist]

theorem decompress_encode_overlap :
    ∃ tokens, Valid tokens ∧ expand tokens = List.replicate 21 0x61 ∧
      decompress (Bytes.ofLatin "Yaz1" ++ Bytes.ofNat 4 7 ++ Bytes.ofNat 8 0 ++
        encode 0x15 tokens ++ [0xFF]) = .ok (List.replicate 7 0x61) := by
  have hvalid : Valid
      [.literal 0x61, .reference ⟨1, 20, by decide, by decide, by decide, by decide⟩] :=
    ⟨Nat.le_refl 1, trivial⟩
  refine ⟨_, hvalid, by decide, ?_⟩
  exact decompress_encode (by decide) (Bytes.length_ofNat 8 0) hvalid (by decide) (by decide)
    0x15 [0xFF]

end Cartridge.Yaz0
