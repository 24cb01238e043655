import Cartridge.Proofs.Image.Naming
import Cartridge.Proofs.Lists

/-!
# Releases by their build blocks

The date of a build block stands behind a text without zero bytes and one zero byte or more, and
it goes up to the next zero byte or to the end of the block. A release is recognised exactly from
the blocks that hold its date in this place, whatever text stands before and whatever bytes
follow.
-/
namespace Cartridge

namespace Bytes

lemma toNat_charOfNat (b : UInt8) : (Char.ofNat b.toNat).toNat = b.toNat := by
  have hvalid : b.toNat.isValidChar := .inl (by have := b.toNat_lt; omega)
  rw [Char.ofNat, dif_pos hvalid]
  rfl

/-- The codes of the characters are the bytes again. -/
lemma ofLatin_toLatin (bytes : Bytes) : ofLatin bytes.toLatin = bytes := by
  simp [ofLatin, toLatin, Function.comp_def, toNat_charOfNat]

lemma toNat_ofNat_char {c : Char} (h : c.toNat < 128) : (UInt8.ofNat c.toNat).toNat = c.toNat :=
  UInt8.toNat_ofNat_of_lt' (Nat.lt_trans h (by decide))

lemma toLatin_ofLatin {text : String} (h : ∀ c ∈ text.toList, c.toNat < 128) :
    (ofLatin text).toLatin = text := by
  have hchars : ∀ c ∈ text.toList,
      ((fun b : UInt8 => Char.ofNat b.toNat) ∘ fun c : Char => UInt8.ofNat c.toNat) c = c := by
    intro c hc
    rw [Function.comp_apply, toNat_ofNat_char (h c hc), Char.ofNat_toNat]
  rw [toLatin, ofLatin, List.map_map, List.map_congr_left hchars, List.map_id',
    String.ofList_toList]

lemma zero_notMem_ofLatin {text : String} (h : ∀ c ∈ text.toList, 0 < c.toNat ∧ c.toNat < 128) :
    0 ∉ ofLatin text := by
  intro hzero
  obtain ⟨c, hc, hcode⟩ := List.mem_map.mp hzero
  obtain ⟨hpos, hsmall⟩ := h c hc
  have hnat := toNat_ofNat_char hsmall
  rw [hcode] at hnat
  exact Nat.ne_of_lt hpos hnat

/-- A decoding that reads the bytes below 128 as the characters with their codes, and that shows
any other byte in a character that has no such code. -/
structure ReadsAscii (decode : Bytes → String) : Prop where
  ascii : ∀ bytes : Bytes, (∀ b ∈ bytes, b.toNat < 128) → decode bytes = bytes.toLatin
  other : ∀ bytes : Bytes, (∃ b ∈ bytes, 128 ≤ b.toNat) →
    ∃ c ∈ (decode bytes).toList, 128 ≤ c.toNat

lemma readsAscii_toLatin : ReadsAscii toLatin where
  ascii _ _ := rfl
  other bytes h := by
    obtain ⟨b, hb, hlarge⟩ := h
    refine ⟨Char.ofNat b.toNat, ?_, ?_⟩
    · rw [toLatin, String.toList_ofList]
      exact List.mem_map_of_mem hb
    · rwa [toNat_charOfNat]

end Bytes

namespace Release

/-- A block has a date behind a text and zero bytes, and nothing or a zero byte behind the date. -/
def Dated (block date : Bytes) : Prop :=
  ∃ (user : Bytes) (zeros : ℕ) (rest : Bytes),
    block = user ++ List.replicate (zeros + 1) 0 ++ date ++ rest ∧ 0 ∉ user ∧
      (rest = [] ∨ ∃ more, rest = 0 :: more)

variable {block date : Bytes}

/-- The three searches pass over a text without zero bytes, over zero bytes and over the date. -/
lemma dated_of_blockDate (hne : date ≠ []) (hdate : 0 ∉ date) (h : blockDate block = date) :
    Dated (block.take blockSize) date := by
  rw [blockDate] at h
  generalize block.take blockSize = window at h ⊢
  generalize huser : window.takeWhile (· != 0) = user
  generalize hbehind : window.dropWhile (· != 0) = behind at h
  generalize hzeros : behind.takeWhile (· == 0) = zeros
  generalize htail : behind.dropWhile (· == 0) = tail at h
  generalize hrest : tail.dropWhile (· != 0) = rest
  obtain ⟨rfl, hnonzero, hfirst⟩ := takeWhile_dropWhile_iff.mp ⟨huser, hbehind⟩
  obtain ⟨rfl, hzero, -⟩ := takeWhile_dropWhile_iff.mp ⟨hzeros, htail⟩
  obtain ⟨rfl, -, hend⟩ := takeWhile_dropWhile_iff.mp ⟨h, hrest⟩
  have hlength : zeros.length ≠ 0 := by
    intro hlength
    obtain ⟨d, ds, rfl⟩ := List.exists_cons_of_ne_nil hne
    rw [List.length_eq_zero_iff.mp hlength] at hfirst
    have hd := hfirst d rfl
    rw [bne_eq_false_iff_eq] at hd
    exact hdate (hd ▸ List.mem_cons_self)
  have hreplicate : zeros = List.replicate zeros.length 0 :=
    List.eq_replicate_iff.mpr ⟨rfl, fun b hb => beq_iff_eq.mp (hzero b hb)⟩
  obtain ⟨n, hn⟩ := Nat.exists_eq_add_one_of_ne_zero hlength
  refine ⟨user, n, rest, ?_, fun hmem => by simpa using hnonzero 0 hmem, ?_⟩
  · rw [← hn, ← hreplicate, List.append_assoc, List.append_assoc]
  · cases rest with
    | nil => exact .inl rfl
    | cons b more => exact .inr ⟨more, by simpa using hend b rfl⟩

lemma blockDate_of_dated (hne : date ≠ []) (hdate : 0 ∉ date)
    (h : Dated (block.take blockSize) date) : blockDate block = date := by
  obtain ⟨user, zeros, rest, hwindow, huser, hrest⟩ := h
  have hnonzero (part : Bytes) (h : 0 ∉ part) : ∀ b ∈ part, (b != 0) = true := by
    intro b hb
    rw [bne_iff_ne]
    exact fun hzero => h (hzero ▸ hb)
  have hzeros : ∀ b ∈ List.replicate (zeros + 1) (0 : UInt8), (b == 0) = true := by simp
  have hfirst : ∀ b ∈ (List.replicate (zeros + 1) 0 ++ (date ++ rest)).head?,
      (b != 0) = false := by
    simp [List.replicate_succ]
  have hhead : ∀ b ∈ (date ++ rest).head?, (b == 0) = false := by
    obtain ⟨d, ds, rfl⟩ := List.exists_cons_of_ne_nil hne
    simpa using hnonzero _ hdate d List.mem_cons_self
  have hend : ∀ b ∈ rest.head?, (b != 0) = false := by
    rcases hrest with rfl | ⟨more, rfl⟩ <;> simp
  rw [List.append_assoc, List.append_assoc] at hwindow
  rw [blockDate, hwindow,
    (takeWhile_dropWhile_iff.mpr ⟨rfl, hnonzero user huser, hfirst⟩).2,
    (takeWhile_dropWhile_iff.mpr ⟨rfl, hzeros, hhead⟩).2,
    (takeWhile_dropWhile_iff.mpr ⟨rfl, hnonzero date hdate, hend⟩).1]

lemma ofDate_eq_iff {release : Release} {text date : String} (h : release.date? = some date) :
    ofDate text = release ↔ text = date := by
  constructor
  · intro htext
    rw [ofDate] at htext
    cases hfind : known.find? fun r => r.date? == some text with
    | none =>
      rw [hfind] at htext
      subst htext
      cases h
    | some found =>
      rw [hfind] at htext
      have hdate := List.find?_some hfind
      rw [beq_iff_eq] at hdate
      rw [show found = release from htext, h] at hdate
      exact (Option.some.inj hdate).symm
  · rintro rfl
    cases release <;> cases h <;> decide +kernel

lemma date?_eq_none_iff {release : Release} : release.date? = none ↔ release = unknown := by
  cases release <;> simp [date?]

lemma ofDate_eq_unknown_iff {text : String} :
    ofDate text = unknown ↔
      ∀ (release : Release) (date : String), release.date? = some date → text ≠ date := by
  constructor
  · rintro h release date hdate rfl
    rw [(ofDate_eq_iff hdate).mpr rfl] at h
    subst h
    cases hdate
  · intro h
    cases hdate : (ofDate text).date? with
    | none => exact date?_eq_none_iff.mp hdate
    | some date => exact absurd ((ofDate_eq_iff hdate).mp rfl) (h _ _ hdate)

/-- A date of a release has 17 characters, with codes from 1 to 127. -/
lemma date_chars {release : Release} {date : String} (h : release.date? = some date) :
    date.toList.length = 17 ∧ ∀ c ∈ date.toList, 0 < c.toNat ∧ c.toNat < 128 := by
  have hall : date.toList.length = 17 ∧
      (date.toList.all fun c => 0 < c.toNat ∧ c.toNat < 128) = true := by
    cases release <;> cases h <;> decide +kernel
  simpa only [List.all_eq_true, decide_eq_true_eq] using hall

/-- As bytes, a date of a release has no zero, and its characters are found again. -/
lemma date_bytes {release : Release} {date : String} (h : release.date? = some date) :
    (Bytes.ofLatin date).toLatin = date ∧ (Bytes.ofLatin date).length = 17 ∧
      0 ∉ Bytes.ofLatin date := by
  obtain ⟨hlength, hchars⟩ := date_chars h
  refine ⟨Bytes.toLatin_ofLatin fun c hc => (hchars c hc).2, ?_, Bytes.zero_notMem_ofLatin hchars⟩
  rw [Bytes.ofLatin, List.length_map, hlength]

/-- The date of a block is that of a release where the block has it in its first bytes. -/
lemma ofBlock_eq_iff {release : Release} {text : String} (h : release.date? = some text) :
    ofBlock block = release ↔ Dated (block.take blockSize) (Bytes.ofLatin text) := by
  obtain ⟨htext, hlength, hzero⟩ := date_bytes h
  have hne : Bytes.ofLatin text ≠ [] := List.ne_nil_of_length_pos (by omega)
  have hlatin : (blockDate block).toLatin = text ↔ blockDate block = Bytes.ofLatin text := by
    constructor
    · intro hdate
      rw [← hdate, Bytes.ofLatin_toLatin]
    · intro hdate
      rw [hdate, htext]
  rw [ofBlock, ofDate_eq_iff h, hlatin]
  exact ⟨dated_of_blockDate hne hzero, blockDate_of_dated hne hzero⟩

lemma ofBlock_take (block : Bytes) : ofBlock (block.take blockSize) = ofBlock block := by
  rw [ofBlock, ofBlock, blockDate, blockDate, List.take_take, Nat.min_self]

/-- How other bytes than those below 128 are shown makes no difference, since no date has a
character for one. -/
lemma ofDate_decode {decode : Bytes → String} (hdecode : Bytes.ReadsAscii decode) (bytes : Bytes) :
    ofDate (decode bytes) = ofDate bytes.toLatin := by
  by_cases h : ∀ b ∈ bytes, b.toNat < 128
  · rw [hdecode.ascii bytes h]
  · simp only [not_forall, Nat.not_lt] at h
    obtain ⟨b, hb, hlarge⟩ := h
    have hunknown {decode : Bytes → String} (hdecode : Bytes.ReadsAscii decode) :
        ofDate (decode bytes) = unknown := by
      rw [ofDate_eq_unknown_iff]
      rintro release date hdate rfl
      obtain ⟨c, hc, hcode⟩ := hdecode.other bytes ⟨b, hb, hlarge⟩
      exact Nat.not_lt_of_le hcode ((date_chars hdate).2 c hc).2
    rw [hunknown hdecode, hunknown Bytes.readsAscii_toLatin]

/-- A block with the date of a release behind any text and any zero bytes that leave room for it. -/
lemma dated_append {user date rest : Bytes} {zeros : ℕ} (huser : 0 ∉ user)
    (hrest : rest = [] ∨ (∃ more, rest = 0 :: more) ∨
      user.length + (zeros + 1) + date.length = blockSize)
    (hfits : user.length + (zeros + 1) + date.length ≤ blockSize) :
    Dated ((user ++ List.replicate (zeros + 1) 0 ++ date ++ rest).take blockSize) date := by
  have hlength : (user ++ List.replicate (zeros + 1) 0 ++ date).length =
      user.length + (zeros + 1) + date.length := by simp [Nat.add_assoc]
  rw [List.take_append, List.take_of_length_le (by omega)]
  refine ⟨user, zeros, _, rfl, huser, ?_⟩
  rw [hlength]
  rcases hrest with rfl | ⟨more, rfl⟩ | hfull
  · exact .inl List.take_nil
  · cases blockSize - (user.length + (zeros + 1) + date.length) with
    | zero => exact .inl rfl
    | succ n => exact .inr ⟨_, rfl⟩
  · rw [hfull, Nat.sub_self]
    exact .inl rfl

/-- The release of an image is told by the block at the first magic text in its bytes. -/
lemma ofBlock_of_load {dump : Bytes} {configOf : Release → Option Config.Tree} {image : Image}
    (h : Image.load dump configOf = .ok image) :
    image.bytes.FirstAt Image.magic image.magicOffset ∧
      (∃ swapped, Image.normalize dump = .ok (image.bytes, swapped)) ∧
      image.release = ofBlock ((image.bytes.drop image.magicOffset).take blockSize) := by
  rw [Image.load_eq_withConfig] at h
  obtain ⟨base, hbase, rfl⟩ := map_eq_ok.mp h
  have hread := Image.readFrom_of_ofBytes hbase
  have hrelease := hread.release_eq
  rw [← ofBlock_take] at hrelease
  unfold Image.withConfig
  split <;> exact ⟨hread.firstAt, ⟨_, hread.normalize_eq⟩, hrelease⟩

/-- A block is one of a release exactly when its first bytes hold the date of the release behind
a text and zero bytes, up to their end or a zero byte, and no other block is. So bytes behind them
make no difference, the text and the zero bytes may be as long as they leave room for the date,
and an image is of the release that the block at its first magic text tells. How a decoding shows
bytes that are no character of a date does not matter. -/
theorem ofBlock_exact (block : Bytes) :
    (∀ (release : Release) (text : String), release.date? = some text →
      (Bytes.ofLatin text).length = 17 ∧
        (ofBlock block = release ↔ Dated (block.take blockSize) (Bytes.ofLatin text))) ∧
    (ofBlock block = unknown ↔ ∀ (release : Release) (text : String), release.date? = some text →
      ¬ Dated (block.take blockSize) (Bytes.ofLatin text)) ∧
    (∀ other : Bytes, other.take blockSize = block.take blockSize → ofBlock other = ofBlock block) ∧
    (∀ (user rest : Bytes) (zeros : ℕ) (release : Release) (text : String),
      release.date? = some text → 0 ∉ user → user.length + (zeros + 1) + 17 ≤ blockSize →
      (rest = [] ∨ (∃ more, rest = 0 :: more) ∨ user.length + (zeros + 1) + 17 = blockSize) →
      ofBlock (user ++ List.replicate (zeros + 1) 0 ++ Bytes.ofLatin text ++ rest) = release) ∧
    (∀ (dump : Bytes) (configOf : Release → Option Config.Tree) (image : Image),
      Image.load dump configOf = .ok image →
      image.bytes.FirstAt Image.magic image.magicOffset ∧
        (∃ swapped, Image.normalize dump = .ok (image.bytes, swapped)) ∧
        image.release = ofBlock ((image.bytes.drop image.magicOffset).take blockSize)) ∧
    ∀ decode, Bytes.ReadsAscii decode → ofDate (decode (blockDate block)) = ofBlock block := by
  refine ⟨fun release text h => ⟨?_, ofBlock_eq_iff h⟩, ?_, fun other h => ?_, ?_,
    fun dump configOf image h => ofBlock_of_load h, fun decode h => ofDate_decode h _⟩
  · obtain ⟨-, hlength, -⟩ := date_bytes h
    exact hlength
  · constructor
    · intro hunknown release text h hdated
      rw [(ofBlock_eq_iff h).mpr hdated] at hunknown
      subst hunknown
      cases h
    · intro hnone
      cases hdate : (ofBlock block).date? with
      | none => exact date?_eq_none_iff.mp hdate
      | some text => exact absurd ((ofBlock_eq_iff hdate).mp rfl) (hnone _ text hdate)
  · rw [← ofBlock_take, h, ofBlock_take]
  · intro user rest zeros release text h huser hfits hrest
    obtain ⟨-, hlength, -⟩ := date_bytes h
    rw [← hlength] at hfits hrest
    exact (ofBlock_eq_iff h).mpr (dated_append huser hrest hfits)

/-- The block of the first release. -/
theorem ofBlock_exact_ootNtsc10 :
    let user := Bytes.ofLatin "zelda@srd44"
    let date := Bytes.ofLatin "98-10-21 04:56:31"
    (0 ∉ user ∧ user.length + (12 + 1) + 17 ≤ blockSize) ∧
      ofBlock (user ++ List.replicate (12 + 1) 0 ++ date ++ List.replicate 7 0) = .ootNtsc10 := by
  intro user date
  have huser : 0 ∉ user := by decide +kernel
  have hfits : user.length + (12 + 1) + 17 ≤ blockSize := by decide +kernel
  obtain ⟨-, -, -, hplaced, -⟩ := ofBlock_exact []
  exact ⟨⟨huser, hfits⟩, hplaced user _ 12 _ _ rfl huser hfits (.inr (.inl ⟨_, rfl⟩))⟩

end Release

end Cartridge
