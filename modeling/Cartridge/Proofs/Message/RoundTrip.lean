import Cartridge.Proofs.Message.CodePage

/-!
# Messages and their bytes

In an encoding that takes one byte for a character, what a code page spells is read
back, and whatever can be read is what the page spells.
-/
namespace Cartridge.Message

namespace Lexeme

lemma control_append {size n : ℕ} (hpos : 0 < size) (hlt : n < 256 ^ size) (code : Control)
    (rest : Bytes) :
    control code size 0 (Bytes.ofNat size n ++ rest) =
      .fragment (.control code (some n)) (Bytes.ofNat size n).length := by
  have hlength := Bytes.length_ofNat size n
  have hsize : size ≤ (Bytes.ofNat size n ++ rest).length := by
    rw [List.length_append]
    omega
  have hbehind := control_behind code hpos [] (Bytes.ofNat size n ++ rest)
  rw [if_pos hsize, List.take_left' hlength, Bytes.toNat_ofNat hlt] at hbehind
  simpa [hlength] using hbehind

/-- Where a control code is read, its argument has as many bytes as it should. -/
lemma control_eq_lexeme {code : Control} {size more : ℕ} {rest : Bytes} {p : Piece}
    (h : control code size 0 rest = p.lexeme more) :
    (size = 0 ∧ more = 0 ∧ p = .fragment (.control code none)) ∨
      (0 < size ∧ more = size ∧ size ≤ rest.length ∧
        p = .fragment (.control code (some (Bytes.toNat (rest.take size))))) := by
  have hbehind : control code size ([] : Bytes).length ([] ++ rest) = p.lexeme more := h
  simpa using control_behind_eq_lexeme hbehind

end Lexeme

namespace SingleByte

variable {s : SingleByte}

lemma meaning_charByte {c : Char} (h : s.page.HasChar c) :
    s.meaning (s.page.charByte c).toNat = .piece (.char c) := by
  rcases h with ⟨hge, hle⟩ | hmem
  · have hbyte : (s.page.charByte c).toNat = c.toNat := by
      rw [CodePage.charByte, if_pos hle, UInt8.toNat_ofNat']
      omega
    rw [hbyte, meaning_ascii s c.toNat hle hge, Char.ofNat_toNat]
  · exact meaning_letter s c hmem

lemma meaning_of_lookup {code : Control} {b size : ℕ}
    (h : s.page.controls.lookup code = some (b, size)) :
    s.meaning (UInt8.ofNat b).toNat = .control code size := by
  obtain ⟨hlt, hmeaning⟩ := meaning_control s _ (CodePage.mem_controls_of_lookup h)
  rwa [UInt8.toNat_ofNat_of_lt' hlt]

lemma readsOff_of_meaning {b : UInt8} {p : Piece} (h : s.meaning b.toNat = .piece p) :
    s.encoding.lexer.ReadsOff [b] p := by
  refine ⟨b, [], rfl, fun rest => ?_⟩
  rw [lexer_eq, h]
  rfl

lemma readsOff_color {color : TextColor} (h : color ∈ s.page.colors) :
    s.encoding.lexer.ReadsOff (s.page.spell (.color color)) (.fragment (.color color)) := by
  rcases meaning_color s color h with ⟨hmark, hmeaning⟩ | ⟨hmark, hmeaning, hcolor⟩
  · rw [CodePage.spell, hmark]
    exact readsOff_of_meaning hmeaning
  · rw [CodePage.spell, hmark]
    refine ⟨0x05, [s.page.colorByte color], rfl, fun rest => ?_⟩
    have hmeaning : s.meaning (0x05 : UInt8).toNat = .colorMark := hmeaning
    rw [lexer_eq, hmeaning, List.singleton_append, Meaning.lexeme, Ocarina.colorLexeme, hcolor]
    rfl

lemma readsOff_control {code : Control} (h : s.page.argumentSize? code = some 0) :
    s.encoding.lexer.ReadsOff (s.page.spell (.control code none)) (.fragment (.control code none)) := by
  obtain ⟨⟨b, size⟩, hlookup, rfl⟩ := Option.map_eq_some_iff.mp h
  simp only [CodePage.spell, hlookup]
  refine ⟨UInt8.ofNat b, [], rfl, fun rest => ?_⟩
  rw [lexer_eq, meaning_of_lookup hlookup]
  rfl

lemma readsOff_argument {code : Control} {n : ℕ} (h : s.page.Legal (.control code (some n))) :
    s.encoding.lexer.ReadsOff (s.page.spell (.control code (some n))) (.fragment (.control code (some n))) := by
  rcases h with hself | ⟨size, hsize, hpos, hlt⟩
  · obtain ⟨hbyte, hlookup, hmeaning⟩ := meaning_selfArgument s _ hself
    simp only [CodePage.spell, hlookup]
    apply readsOff_of_meaning
    rwa [UInt8.toNat_ofNat_of_lt' hbyte]
  · obtain ⟨⟨b, size'⟩, hlookup, rfl⟩ := Option.map_eq_some_iff.mp hsize
    simp only [CodePage.spell, hlookup]
    refine ⟨UInt8.ofNat b, _, rfl, fun rest => ?_⟩
    rw [lexer_eq, meaning_of_lookup hlookup]
    exact Lexeme.control_append hpos hlt code rest

/-- The lexer reads a piece off the bytes that spell it. -/
theorem readsOff_spellPiece {p : Piece} (h : s.page.LegalPiece p) :
    s.encoding.lexer.ReadsOff (s.page.spellPiece p) p := by
  cases p with
  | char c => exact readsOff_of_meaning (meaning_charByte h)
  | fragment f =>
    obtain ⟨htext, hlegal⟩ := h
    cases f with
    | text run => exact absurd rfl htext
    | color color => exact readsOff_color hlegal
    | button button => exact readsOff_of_meaning (meaning_button s button)
    | control code argument =>
      cases argument with
      | none => exact readsOff_control hlegal
      | some n => exact readsOff_argument hlegal

lemma colorLexeme_eq_lexeme {rest : Bytes} {p : Piece} {more : ℕ}
    (h : Ocarina.colorLexeme rest = p.lexeme more) :
    ∃ b color, rest.take more = [b] ∧ more ≤ rest.length ∧ p = .fragment (.color color) ∧
      Ocarina.color? b.toNat = some color := by
  cases rest with
  | nil => cases p <;> cases h
  | cons b rest =>
    rw [Ocarina.colorLexeme] at h
    split at h
    · next color hcolor =>
      have hp : (Piece.fragment (.color color)).lexeme 1 = p.lexeme more := h
      obtain ⟨rfl, rfl⟩ := Piece.lexeme_inj hp
      exact ⟨b, color, rfl, by simp, rfl, hcolor⟩
    · cases p <;> cases h

/-- A piece that the lexer reads is one that the page spells, with the bytes read. -/
theorem spellPiece_of_lexer {b : UInt8} {rest : Bytes} {p : Piece} {more : ℕ}
    (h : s.encoding.lexer b rest = p.lexeme more) :
    s.page.LegalPiece p ∧ more ≤ rest.length ∧ s.page.spellPiece p = b :: rest.take more := by
  have hfollows := follows_meaning s b.toNat b.toNat_lt
  rw [lexer_eq] at h
  generalize s.meaning b.toNat = meaning at h hfollows
  cases meaning with
  | stop => cases p <;> cases h
  | nothing => cases p <;> cases h
  | piece p' =>
    obtain ⟨rfl, rfl⟩ := Piece.lexeme_inj h
    obtain ⟨hlegal, hspell⟩ := hfollows
    rw [UInt8.ofNat_toNat] at hspell
    exact ⟨hlegal, Nat.zero_le _, hspell⟩
  | control code size =>
    have hlookup : s.page.controls.lookup code = some (b.toNat, size) := hfollows
    have hsize : s.page.argumentSize? code = some size := by
      rw [CodePage.argumentSize?, hlookup]
      rfl
    rcases Lexeme.control_eq_lexeme h with ⟨rfl, rfl, rfl⟩ | ⟨hpos, rfl, hle, rfl⟩
    · refine ⟨⟨by simp [Fragment.isText], hsize⟩, Nat.zero_le _, ?_⟩
      simp [CodePage.spellPiece, CodePage.spell, hlookup]
    · have hlength : (rest.take more).length = more := List.length_take_of_le hle
      have hlt := Bytes.toNat_lt (rest.take more)
      have hargument := Bytes.ofNat_toNat (rest.take more)
      rw [hlength] at hlt hargument
      refine ⟨⟨by simp [Fragment.isText], .inr ⟨more, hsize, hpos, hlt⟩⟩, hle, ?_⟩
      simp only [CodePage.spellPiece, CodePage.spell, hlookup, UInt8.ofNat_toNat, hargument]
  | colorMark =>
    have hmark : s.page.colorMark = [UInt8.ofNat b.toNat] := hfollows
    obtain ⟨n, color, htake, hle, rfl, hcolor⟩ := colorLexeme_eq_lexeme h
    have hmarked : s.page.colorMark ≠ [] := by simp [hmark]
    obtain ⟨hmem, hbyte⟩ := colorByte_of_marked hmarked n.toNat n.toNat_lt color hcolor
    refine ⟨⟨by simp [Fragment.isText], hmem⟩, hle, ?_⟩
    rw [htake, CodePage.spellPiece, CodePage.spell, hmark, hbyte, UInt8.ofNat_toNat,
      UInt8.ofNat_toNat, List.singleton_append]

/-- The lexer ends a message at the byte that ends it, and nowhere else. -/
theorem lexer_eq_stop_iff {b : UInt8} {rest : Bytes} {more : ℕ} :
    s.encoding.lexer b rest = .stop more ↔ b = s.page.stop ∧ more = 0 := by
  have hfollows := follows_meaning s b.toNat b.toNat_lt
  constructor
  · intro h
    rw [lexer_eq] at h
    generalize s.meaning b.toNat = meaning at h hfollows
    cases meaning with
    | stop =>
      cases h
      have hstop : s.page.stop = UInt8.ofNat b.toNat := hfollows
      rw [hstop, UInt8.ofNat_toNat]
      exact ⟨rfl, rfl⟩
    | nothing => cases h
    | piece p => cases p <;> cases h
    | control code size =>
      rw [Meaning.lexeme, Lexeme.control] at h
      split at h
      · cases h
      · split at h <;> cases h
    | colorMark =>
      cases rest with
      | nil => cases h
      | cons b rest =>
        rw [Meaning.lexeme, Ocarina.colorLexeme] at h
        split at h <;> cases h
  · rintro ⟨rfl, rfl⟩
    rw [lexer_eq, meaning_stop]
    rfl

/-- The items are the bytes that spell the pieces. -/
lemma grammar (s : SingleByte) :
    s.encoding.lexer.Grammar (fun part p => s.page.LegalPiece p ∧ part = s.page.spellPiece p)
      s.page.stop [] where
  readsOff := by
    rintro part p ⟨hlegal, rfl⟩
    exact readsOff_spellPiece hlegal
  item_of_lexer h := by
    obtain ⟨hlegal, hle, hspell⟩ := spellPiece_of_lexer h
    exact ⟨hle, hlegal, hspell.symm⟩
  stop_iff := by
    intro b rest more
    rw [lexer_eq_stop_iff]
    constructor
    · rintro ⟨rfl, rfl⟩
      exact ⟨rfl, rest, rfl⟩
    · rintro ⟨rfl, after, hbytes⟩
      exact ⟨(List.cons.inj hbytes).1, rfl⟩

lemma forall₂_spellPiece_iff {parts : List Bytes} {pieces : List Piece} :
    List.Forall₂ (fun part p => s.page.LegalPiece p ∧ part = s.page.spellPiece p) parts pieces ↔
      (∀ p ∈ pieces, s.page.LegalPiece p) ∧ parts = pieces.map s.page.spellPiece := by
  induction pieces generalizing parts with
  | nil => simp
  | cons p pieces ih =>
    rw [List.forall₂_cons_right_iff, List.forall_mem_cons, List.map_cons]
    constructor
    · rintro ⟨part, parts, ⟨hfirst, rfl⟩, hitems, rfl⟩
      obtain ⟨hrest, rfl⟩ := ih.mp hitems
      exact ⟨⟨hfirst, hrest⟩, rfl⟩
    · rintro ⟨⟨hfirst, hrest⟩, rfl⟩
      exact ⟨_, _, ⟨hfirst, rfl⟩, ih.mpr ⟨hrest, rfl⟩, rfl⟩

/-- The lexer takes exactly the pieces that the page can spell, off exactly the bytes
that spell them and the end. -/
theorem takes_iff {bytes : Bytes} {pieces : List Piece} {size : ℕ} :
    Lexer.Takes s.encoding.lexer bytes pieces size ↔
      (∀ p ∈ pieces, s.page.LegalPiece p) ∧
        size = (pieces.flatMap s.page.spellPiece).length + 1 ∧
        ∃ rest, bytes = pieces.flatMap s.page.spellPiece ++ s.page.stop :: rest := by
  rw [s.grammar.takes_iff]
  constructor
  · rintro ⟨parts, after, hitems, rfl, rfl⟩
    obtain ⟨hlegal, rfl⟩ := forall₂_spellPiece_iff.mp hitems
    exact ⟨hlegal, rfl, after, rfl⟩
  · rintro ⟨hlegal, rfl, after, rfl⟩
    exact ⟨_, after, forall₂_spellPiece_iff.mpr ⟨hlegal, rfl⟩, rfl, rfl⟩

end SingleByte

namespace CodePage

variable {page : CodePage}

lemma flatMap_pieces (f : Fragment) : f.pieces.flatMap page.spellPiece = page.spell f := by
  cases f with
  | text run =>
    rw [Fragment.pieces, List.flatMap_map, spell, List.map_eq_flatMap]
    rfl
  | color | button | control => simp [Fragment.pieces, spellPiece]

lemma flatMap_flatMap_pieces (fragments : List Fragment) :
    (fragments.flatMap Fragment.pieces).flatMap page.spellPiece = page.spellAll fragments := by
  simp only [List.flatMap_assoc, flatMap_pieces, spellAll]

/-- The page can spell a fragment when it can spell its pieces. -/
lemma legal_iff (f : Fragment) :
    page.Legal f ↔ (∀ run, f = .text run → run ≠ "") ∧ ∀ p ∈ f.pieces, page.LegalPiece p := by
  cases f with
  | text run => simp [Legal, Fragment.pieces, LegalPiece]
  | color | button | control => simp [Fragment.pieces, LegalPiece, Fragment.isText]

lemma legible_iff (fragments : List Fragment) :
    page.Legible fragments ↔
      Fragment.Joined fragments ∧ ∀ p ∈ fragments.flatMap Fragment.pieces, page.LegalPiece p := by
  constructor
  · intro h
    refine ⟨⟨?_, h.apart⟩, ?_⟩
    · intro run hmem
      exact (h.legal _ hmem).1
    · intro p hp
      obtain ⟨f, hf, hpf⟩ := List.mem_flatMap.mp hp
      exact ((legal_iff f).mp (h.legal f hf)).2 p hpf
  · rintro ⟨hjoined, hlegal⟩
    refine ⟨fun f hf => (legal_iff f).mpr ⟨?_, ?_⟩, hjoined.apart⟩
    · rintro run rfl
      exact hjoined.text_ne run hf
    · intro p hp
      exact hlegal p (List.mem_flatMap.mpr ⟨f, hf, hp⟩)

lemma single_of_legal {pieces : List Piece} (h : ∀ p ∈ pieces, page.LegalPiece p) :
    Piece.Single pieces := fun _ hf => (h _ hf).1

end CodePage

open CodePage in
/-- In an encoding that takes one byte for a character, fragments that its page can
spell are read from what spells them and the end, wherever this stands in a buffer; and
wherever fragments can be read, they are such ones, and the bytes read are those that
spell them and the end. -/
theorem SingleByte.read_spellAll_and_spellAll_of_read (s : SingleByte) :
    (∀ fragments before after, s.page.Legible fragments →
      let bytes := before ++ (s.page.spellAll fragments ++ s.page.stop :: after)
      s.encoding.lexer.read ⟨bytes, before.length⟩ =
        (.ok (fragments ++ [.control .stop none]),
          ⟨bytes, before.length + ((s.page.spellAll fragments).length + 1)⟩)) ∧
    ∀ c c' result, s.encoding.lexer.read c = (.ok result, c') →
      c'.bytes = c.bytes ∧ ∃ fragments, result = fragments ++ [.control .stop none] ∧
        s.page.Legible fragments ∧ c'.since c.pos = s.page.spellAll fragments ++ [s.page.stop] := by
  constructor
  · intro fragments before after hlegible
    obtain ⟨hjoined, hlegal⟩ := (legible_iff fragments).mp hlegible
    refine Lexer.read_eq_ok_iff.mpr ⟨fragments.flatMap Fragment.pieces, _, takes_iff.mpr
      ⟨hlegal, rfl, after, ?_⟩, ?_, ?_⟩
    · rw [flatMap_flatMap_pieces, Cursor.rest, List.drop_left]
    · rw [Piece.join_pieces hjoined]
    · rw [flatMap_flatMap_pieces]
      rfl
  · intro c c' result hread
    obtain ⟨pieces, size, htakes, rfl, rfl⟩ := Lexer.read_eq_ok_iff.mp hread
    obtain ⟨hlegal, rfl, rest, hrest⟩ := takes_iff.mp htakes
    obtain ⟨hjoined, hpieces⟩ := Piece.joined_join (single_of_legal hlegal)
    refine ⟨rfl, Piece.join pieces, rfl, (legible_iff _).mpr ⟨hjoined, ?_⟩, ?_⟩
    · rwa [hpieces]
    · rw [← flatMap_flatMap_pieces, hpieces, Cursor.since, Cursor.advance,
        List.extract_eq_take_drop, Nat.add_sub_cancel_left]
      change c.rest.take _ = _
      rw [hrest, ← List.singleton_append, ← List.append_assoc]
      exact List.take_left' (by simp)

/-- The argument of a code may be the byte that ends a message. -/
theorem SingleByte.read_spellAll_fade :
    CodePage.ocarina.Legible [.text "Hé", .control .fade (some 2), .color .red] ∧
      Encoding.ootAscii.lexer.read ⟨[0x48, 0x96, 0x0E, 0x02, 0x05, 0x41, 0x02, 0xFF], 0⟩ =
        (.ok [.text "Hé", .control .fade (some 2), .color .red, .control .stop none],
          ⟨[0x48, 0x96, 0x0E, 0x02, 0x05, 0x41, 0x02, 0xFF], 7⟩) := by
  have hlegible : CodePage.ocarina.Legible [.text "Hé", .control .fade (some 2), .color .red] :=
    ⟨by decide, by decide⟩
  exact ⟨hlegible,
    (SingleByte.ocarina.read_spellAll_and_spellAll_of_read).1 _ [] [0xFF] hlegible⟩

end Cartridge.Message
