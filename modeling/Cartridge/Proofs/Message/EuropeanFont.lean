import Cartridge.Proofs.Message.Reading
import Cartridge.Proofs.Message.RoundTrip

/-!
# The font of the European cartridges

The European font of Majora's Mask has three characters more than the American one, and their
bytes mean nothing in the American encoding. Everything else means the same in both. So the two
encodings read alike up to the first of these bytes that stands for a character; where it belongs
to the argument of a control code it does not matter.
-/
namespace Cartridge.Message

namespace Majora

/-- The characters that only the European font has. -/
def europeanLetters : List Char := ['¡', '¿', 'ª']

/-- The bytes of the characters that only the European font has. -/
def IsEuropean (b : UInt8) : Prop := 0xAD ≤ b.toNat ∧ b.toNat ≤ 0xAF

abbrev charByte (c : Char) : UInt8 := SingleByte.majoraEurope.page.charByte c

lemma drop_letters : SingleByte.majoraEurope.page.letters.drop 45 = europeanLetters := by
  decide +kernel

lemma map_charByte : europeanLetters.map charByte = [0xAD, 0xAE, 0xAF] := by
  decide +kernel

lemma isEuropean_iff {b : UInt8} : IsEuropean b ↔ ∃ c ∈ europeanLetters, charByte c = b := by
  rw [← List.mem_map, map_charByte, IsEuropean]
  simp only [List.mem_cons, List.not_mem_nil, or_false, ← UInt8.toNat_inj, UInt8.reduceToNat]
  omega

/-- The fonts have the same characters but for the bytes of the European ones. -/
lemma char?_eq {b : ℕ} (h : ¬ (0xAD ≤ b ∧ b ≤ 0xAF)) : char? 0xAC b = char? 0xAF b := by
  have hlast : (0x80 ≤ b ∧ b ≤ 0xAC) ↔ (0x80 ≤ b ∧ b ≤ 0xAF) := by omega
  simp only [char?, hlast]

/-- A byte that is not of a European character means the same in both encodings. -/
lemma lexer_eq_of_not_isEuropean {b : UInt8} (h : ¬ IsEuropean b) (rest : Bytes) :
    lexer 0xAC b rest = lexer 0xAF b rest := by
  simp only [lexer, meaning, char?_eq h]

/-- The byte of a European character means nothing in the American encoding. -/
lemma lexer_of_isEuropean {b : UInt8} (h : IsEuropean b) (rest : Bytes) :
    lexer 0xAC b rest = .bad 0 none := by
  obtain ⟨hge, hle⟩ := h
  have hcases : b.toNat = 0xAD ∨ b.toNat = 0xAE ∨ b.toNat = 0xAF := by omega
  rcases hcases with hb | hb | hb <;> simp only [lexer, hb] <;> rfl

lemma lexer_charByte {c : Char} (h : c ∈ europeanLetters) (rest : Bytes) :
    lexer 0xAF (charByte c) rest = .char c 0 := by
  have hmem : c ∈ SingleByte.majoraEurope.page.letters := by
    rw [← drop_letters] at h
    exact List.mem_of_mem_drop h
  have hlexer := SingleByte.majoraEurope.lexer_eq (charByte c) rest
  rw [SingleByte.meaning_letter .majoraEurope c hmem] at hlexer
  exact hlexer

/-- What the American encoding reads, the European one reads too. -/
lemma lexer_of_american {b : UInt8} {rest : Bytes} {lexeme : Lexeme}
    (head : lexer 0xAC b rest = lexeme) (hne : lexeme ≠ .bad 0 none) :
    lexer 0xAF b rest = lexeme := by
  have hb : ¬ IsEuropean b := fun hb => hne (head.symm.trans (lexer_of_isEuropean hb rest))
  exact (lexer_eq_of_not_isEuropean hb rest).symm.trans head

/-- What the European encoding reads, the American one reads too, a European character apart. -/
lemma lexer_of_european {b : UInt8} {rest : Bytes} {lexeme : Lexeme}
    (head : lexer 0xAF b rest = lexeme) (hne : ∀ c ∈ europeanLetters, lexeme ≠ .char c 0) :
    lexer 0xAC b rest = lexeme := by
  have hb : ¬ IsEuropean b := by
    intro hb
    obtain ⟨c, hc, rfl⟩ := isEuropean_iff.mp hb
    exact hne c hc (head.symm.trans (lexer_charByte hc rest))
  exact (lexer_eq_of_not_isEuropean hb rest).trans head

end Majora

/-- Whether the piece is a character that only the European font has. -/
def Piece.isEuropean : Piece → Bool
  | char c => c ∈ Majora.europeanLetters
  | fragment _ => false

lemma Piece.lexeme_ne_of_not_isEuropean {p : Piece} (h : ¬ p.isEuropean) (more : ℕ) :
    ∀ c ∈ Majora.europeanLetters, p.lexeme more ≠ .char c 0 := by
  intro c hc hp
  have hchar : p.lexeme more = (char c).lexeme 0 := hp
  obtain ⟨rfl, -⟩ := lexeme_inj hchar
  exact h (decide_eq_true hc)

namespace Lexer

open Majora

variable {bytes : Bytes} {size : ℕ}

/-- A reading of the American encoding that does not come to a byte of a European character is
one of the European encoding. -/
theorem Reads.european {ending : Ending (List Piece)}
    (h : Reads (lexer 0xAC) bytes size ending)
    (hnot : ∀ b reason, ending = .bad [b] reason → ¬ IsEuropean b) :
    Reads (lexer 0xAF) bytes size ending := by
  induction h with
  | nothing => exact .nothing
  | stop head => exact .stop (lexer_of_american head nofun)
  | short head => exact .short (lexer_of_american head nofun)
  | @bad b rest more reason head =>
    have hb : ¬ IsEuropean b := by
      intro hb
      cases head.symm.trans (lexer_of_isEuropean hb rest)
      exact hnot b none rfl hb
    exact .bad ((lexer_eq_of_not_isEuropean hb rest).symm.trans head)
  | @piece b rest p more size ending head tail ih =>
    refine .piece (lexer_of_american head (by cases p <;> nofun)) (ih ?_)
    rintro b' reason rfl
    exact hnot b' reason rfl

/-- What the European encoding takes without a European character the American one takes too. -/
theorem Takes.american {pieces : List Piece} (h : Takes (lexer 0xAF) bytes pieces size)
    (hnot : ∀ p ∈ pieces, ¬ p.isEuropean) : Takes (lexer 0xAC) bytes pieces size := by
  induction h using Takes.induction with
  | stop head => exact .stop (lexer_of_european head fun _ _ => nofun)
  | @piece b rest p pieces more size head tail ih =>
    obtain ⟨hp, hpieces⟩ := List.forall_mem_cons.mp hnot
    exact .piece (lexer_of_european head (Piece.lexeme_ne_of_not_isEuropean hp more)) (ih hpieces)

/-- Where the European encoding takes a European character first, the American one comes to the
byte of it, behind the bytes that spell what stands in front. -/
theorem Takes.american_bad {front behind : List Piece} {c : Char}
    (h : Takes (lexer 0xAF) bytes (front ++ .char c :: behind) size)
    (hfront : ∀ p ∈ front, ¬ p.isEuropean) (hc : c ∈ europeanLetters) :
    let before := front.flatMap SingleByte.majoraEurope.page.spellPiece
    (∃ after, bytes = before ++ charByte c :: after) ∧
      Reads (lexer 0xAC) bytes (before.length + 1) (.bad [charByte c] none) := by
  induction front generalizing bytes size with
  | nil =>
    obtain ⟨b, rest, more, size, rfl, rfl, head, tail⟩ := h.of_cons
    obtain ⟨-, -, hspell⟩ := SingleByte.spellPiece_of_lexer (s := .majoraEurope) head
    obtain rfl : charByte c = b := (List.cons.inj hspell).1
    have hbad := lexer_of_isEuropean (isEuropean_iff.mpr ⟨c, hc, rfl⟩) rest
    exact ⟨⟨rest, rfl⟩, .bad hbad⟩
  | cons p front ih =>
    obtain ⟨b, rest, more, size, rfl, rfl, head, tail⟩ := h.of_cons
    obtain ⟨hp, hfront⟩ := List.forall_mem_cons.mp hfront
    obtain ⟨⟨after, hafter⟩, hreads⟩ := ih tail hfront
    obtain ⟨-, hle, hspell⟩ := SingleByte.spellPiece_of_lexer (s := .majoraEurope) head
    have hhead := lexer_of_european head (Piece.lexeme_ne_of_not_isEuropean hp more)
    intro before
    have hbefore : before = b :: rest.take more ++
        front.flatMap SingleByte.majoraEurope.page.spellPiece := by
      rw [← hspell]
      exact List.flatMap_cons
    rw [hbefore]
    refine ⟨⟨after, ?_⟩, ?_⟩
    · rw [List.append_assoc, ← hafter, List.cons_append, List.take_append_drop]
    · have hsize : (b :: rest.take more ++
          front.flatMap SingleByte.majoraEurope.page.spellPiece).length + 1 = 1 + more +
            ((front.flatMap SingleByte.majoraEurope.page.spellPiece).length + 1) := by
        rw [List.length_append, List.length_cons, List.length_take_of_le hle]
        omega
      rw [hsize]
      exact .piece hhead hreads

end Lexer

/-- Whether a text holds a character that only the European font has. -/
def Fragment.isEuropean : Fragment → Bool
  | text run => run.toList.any fun c => c ∈ Majora.europeanLetters
  | _ => false

lemma Fragment.isEuropean_iff (f : Fragment) : f.isEuropean ↔ ∃ p ∈ f.pieces, p.isEuropean := by
  cases f with
  | text run => simp [isEuropean, pieces, Piece.isEuropean]
  | color | button | control => simp [isEuropean, pieces, Piece.isEuropean]

namespace Encoding

open Majora

variable {c c' : Cursor} {fragments : List Fragment}

/-- The American encoding fails at the first character of a text that only the European font has:
the byte of it stands behind the bytes that spell what is in front, and is told alone. -/
def FailsAtFirst (c : Cursor) (fragments : List Fragment) : Prop :=
  ∃ front letter behind after,
    fragments.flatMap Fragment.pieces = front ++ .char letter :: behind ∧
    letter ∈ europeanLetters ∧ (∀ p ∈ front, ¬ p.isEuropean) ∧
    let before := front.flatMap SingleByte.majoraEurope.page.spellPiece
    c.rest = before ++ charByte letter :: after ∧
      mmAscii.lexer.read c = (.error (.badSequence [charByte letter] none),
        c.advance (before.length + 1))

/-- The fragments that are read are those of the pieces taken, and the end. -/
lemma exists_takes_of_read (h : mmEuAscii.lexer.read c = (.ok fragments, c')) :
    ∃ pieces size, Lexer.Takes (Majora.lexer 0xAF) c.rest pieces size ∧
      fragments = Piece.join pieces ++ [.control .stop none] ∧ c' = c.advance size ∧
      fragments.flatMap Fragment.pieces = pieces ++ [.fragment (.control .stop none)] := by
  obtain ⟨pieces, size, htakes, rfl, rfl⟩ := Lexer.read_eq_ok_iff.mp h
  obtain ⟨hlegal, -⟩ := (SingleByte.takes_iff (s := .majoraEurope)).mp htakes
  obtain ⟨-, hpieces⟩ := Piece.joined_join (CodePage.single_of_legal hlegal)
  refine ⟨pieces, size, htakes, rfl, rfl, ?_⟩
  rw [List.flatMap_append, hpieces]
  rfl

lemma read_of_american (h : mmEuAscii.lexer.read c = (.ok fragments, c'))
    (hnot : ∀ f ∈ fragments, ¬ f.isEuropean) : mmAscii.lexer.read c = (.ok fragments, c') := by
  obtain ⟨pieces, size, htakes, hfragments, hc', hpieces⟩ := exists_takes_of_read h
  have hamerican : ∀ p ∈ pieces, ¬ p.isEuropean := by
    intro p hp hletter
    have hmem : p ∈ fragments.flatMap Fragment.pieces := by simp [hpieces, hp]
    obtain ⟨f, hf, hpf⟩ := List.mem_flatMap.mp hmem
    exact hnot f hf (f.isEuropean_iff.mpr ⟨p, hpf, hletter⟩)
  exact Lexer.read_eq_ok_iff.mpr ⟨pieces, size, htakes.american hamerican, hfragments, hc'⟩

lemma failsAtFirst_of_read (h : mmEuAscii.lexer.read c = (.ok fragments, c'))
    (hsome : ∃ f ∈ fragments, f.isEuropean) : FailsAtFirst c fragments := by
  obtain ⟨pieces, size, htakes, -, -, hpieces⟩ := exists_takes_of_read h
  obtain ⟨f, hf, hletter⟩ := hsome
  obtain ⟨p, hp, hletter⟩ := f.isEuropean_iff.mp hletter
  have hmem : p ∈ pieces := by
    have hall : p ∈ pieces ++ [.fragment (.control .stop none)] := by
      rw [← hpieces]
      exact List.mem_flatMap.mpr ⟨f, hf, hp⟩
    rcases List.mem_append.mp hall with hp | hp
    · exact hp
    · cases List.mem_singleton.mp hp
      cases hletter
  obtain ⟨first, hfind⟩ := Option.isSome_iff_exists.mp
    (List.find?_isSome.mpr ⟨p, hmem, hletter⟩)
  obtain ⟨hfirst, front, behind, rfl, hfront⟩ := List.find?_eq_some_iff_append.mp hfind
  have hfront : ∀ p ∈ front, ¬ p.isEuropean := by simpa using hfront
  cases first with
  | fragment => cases hfirst
  | char letter =>
    have hmem : letter ∈ europeanLetters := of_decide_eq_true hfirst
    obtain ⟨⟨after, hrest⟩, hreads⟩ := htakes.american_bad hfront hmem
    refine ⟨front, letter, _, after, hpieces.trans (List.append_assoc ..), hmem, hfront, hrest, ?_⟩
    exact Lexer.read_of_reads hreads

/-- The American and the European encoding of Majora's Mask read alike, unless the American one
fails at a byte of a European character. What the European encoding reads, the American one reads
exactly when no text holds such a character, and else it fails at the first of them. -/
theorem fonts_agree (c : Cursor) :
    ((∃ b reason c', mmAscii.lexer.read c = (.error (.badSequence [b] reason), c') ∧
        IsEuropean b) ∨
      mmEuAscii.lexer.read c = mmAscii.lexer.read c) ∧
    ∀ fragments c', mmEuAscii.lexer.read c = (.ok fragments, c') →
      ((mmAscii.lexer.read c).1 = .ok fragments ↔ ∀ f ∈ fragments, ¬ f.isEuropean) ∧
      ((∃ f ∈ fragments, f.isEuropean) → FailsAtFirst c fragments) := by
  constructor
  · obtain ⟨size, ending, hreads⟩ := mmAscii.lexer.exists_reads c.rest
    by_cases hbad : ∃ b reason, ending = .bad [b] reason ∧ IsEuropean b
    · left
      obtain ⟨b, reason, rfl, hb⟩ := hbad
      exact ⟨b, reason, _, Lexer.read_of_reads hreads, hb⟩
    · right
      have heuropean : mmEuAscii.lexer.Reads c.rest size ending :=
        hreads.european fun b reason hending hb => hbad ⟨b, reason, hending, hb⟩
      rw [Lexer.read_of_reads hreads, Lexer.read_of_reads heuropean]
  · intro fragments c' h
    refine ⟨⟨?_, fun hnot => congrArg Prod.fst (read_of_american h hnot)⟩, failsAtFirst_of_read h⟩
    intro hok f hf hletter
    obtain ⟨_, _, _, _, -, -, -, -, hread⟩ := failsAtFirst_of_read h ⟨f, hf, hletter⟩
    rw [hread] at hok
    cases hok

/-- The bytes of two European characters are the argument of a sound. A third is one. -/
theorem fonts_agree_argument :
    let c : Cursor := ⟨[0x1E, 0xAD, 0xAE, 0xAE, 0x51, 0xBF], 0⟩
    let fragments : List Fragment :=
      [.control .sound (some 0xADAE), .text "¿Q", .control .stop none]
    mmEuAscii.lexer.read c = (.ok fragments, ⟨c.bytes, 6⟩) ∧
      (∃ f ∈ fragments, f.isEuropean) ∧ FailsAtFirst c fragments := by
  intro c fragments
  have htakes : Lexer.Takes mmEuAscii.lexer c.rest
      [.fragment (.control .sound (some 0xADAE)), .char '¿', .char 'Q']
      (1 + 2 + (1 + 0 + (1 + 0 + (1 + 0)))) :=
    .piece rfl (.piece rfl (.piece rfl (.stop rfl)))
  have hread : mmEuAscii.lexer.read c = (.ok fragments, ⟨c.bytes, 6⟩) :=
    Lexer.read_eq_ok_iff.mpr ⟨_, _, htakes, by decide, rfl⟩
  have hsome : ∃ f ∈ fragments, f.isEuropean := ⟨.text "¿Q", by simp [fragments], by decide⟩
  exact ⟨hread, hsome, ((fonts_agree c).2 _ _ hread).2 hsome⟩

end Encoding
end Cartridge.Message
