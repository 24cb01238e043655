import Cartridge.Message.Encoding
import Cartridge.Proofs.Message.Reading

/-!
# Code pages

An encoding that takes one byte for a character has a code page, which tells what a
message may consist of and how each part of it is spelled. The characters from 0x80
on, the colours and the buttons have consecutive bytes; a control code has a byte of
its own, behind which its argument stands.
-/
namespace Cartridge.Message

/-- What an encoding that takes one byte for a character spells, and how. -/
structure CodePage where
  /-- The byte that ends a message. -/
  stop : UInt8
  /-- The characters from byte 0x80 on; those from 0x20 to 0x7E are always there. -/
  letters : List Char
  /-- The bytes in front of a colour. -/
  colorMark : Bytes
  firstColor : ℕ
  colors : List TextColor
  firstButton : ℕ
  /-- The control codes, each with its byte and the size of its argument. -/
  controls : List (Control × ℕ × ℕ)
  /-- The control codes that are spelled by their argument, each with the argument. -/
  selfArguments : List (Control × ℕ)

namespace CodePage

/-- The control codes in a table that tells the code of a byte. -/
def controlsOf (control? : ℕ → Option (Control × ℕ)) : List (Control × ℕ × ℕ) :=
  (List.range 256).filterMap fun b => (control? b).map fun (code, size) => (code, b, size)

/-- The page of Ocarina of Time. -/
def ocarina : CodePage where
  stop := 0x02
  letters := Ocarina.letters
  colorMark := [0x05]
  firstColor := 0x40
  colors := [.standard, .red, .green, .blue, .lightBlue, .pink, .yellow, .black]
  firstButton := 0x9F
  controls := controlsOf Ocarina.control?
  selfArguments := []

/-- The page of Majora's Mask with the given number of letters. -/
def majora (letters : ℕ) : CodePage where
  stop := 0xBF
  letters := Majora.letters.take letters
  colorMark := []
  firstColor := 0x00
  colors := [.standard, .red, .green, .blue, .yellow, .lightBlue, .pink, .silver, .orange]
  firstButton := 0xB0
  controls := controlsOf Majora.control?
  selfArguments := [(.reserved, 0x0A), (.reserved, 0x0E), (.reserved, 0x0F)] ++
    (List.range' 0xC4 60).map fun n => (.gameValue, n)

variable (page : CodePage)

/-- The characters of the page. -/
def HasChar (c : Char) : Prop := (0x20 ≤ c.toNat ∧ c.toNat ≤ 0x7E) ∨ c ∈ page.letters

def argumentSize? (code : Control) : Option ℕ := (page.controls.lookup code).map Prod.snd

/-- A fragment that the page can spell. -/
def Legal : Fragment → Prop
  | .text run => run ≠ "" ∧ ∀ c ∈ run.toList, page.HasChar c
  | .color color => color ∈ page.colors
  | .button _ => True
  | .control code none => page.argumentSize? code = some 0
  | .control code (some n) =>
    (code, n) ∈ page.selfArguments ∨
      ∃ size ∈ page.argumentSize? code, 0 < size ∧ n < 256 ^ size

def charByte (c : Char) : UInt8 :=
  UInt8.ofNat (if c.toNat ≤ 0x7E then c.toNat else 0x80 + page.letters.idxOf c)

def colorByte (color : TextColor) : UInt8 :=
  UInt8.ofNat (page.firstColor + page.colors.idxOf color)

def buttonByte (button : Button) : UInt8 :=
  UInt8.ofNat (page.firstButton + Button.all.idxOf button)

/-- The bytes that spell a fragment; the argument of a control code is big-endian. -/
def spell : Fragment → Bytes
  | .text run => run.toList.map page.charByte
  | .color color => page.colorMark ++ [page.colorByte color]
  | .button button => [page.buttonByte button]
  | .control code argument =>
    match argument, page.controls.lookup code with
    | none, some (b, _) => [UInt8.ofNat b]
    | some n, some (b, size) => UInt8.ofNat b :: Bytes.ofNat size n
    | some n, none => [UInt8.ofNat n]
    | none, none => []

def spellAll (fragments : List Fragment) : Bytes := fragments.flatMap page.spell

/-- Fragments that the page can spell, of which no text follows a text. -/
structure Legible (fragments : List Fragment) : Prop where
  legal : ∀ f ∈ fragments, page.Legal f
  apart : fragments.IsChain fun f g => ¬ (f.isText ∧ g.isText)

/-- The bytes that spell a piece. -/
def spellPiece : Piece → Bytes
  | .char c => [page.charByte c]
  | .fragment f => page.spell f

/-- A piece that the page can spell, which is no whole text. -/
def LegalPiece : Piece → Prop
  | .char c => page.HasChar c
  | .fragment f => ¬ f.isText ∧ page.Legal f

instance (c : Char) : Decidable (page.HasChar c) := inferInstanceAs (Decidable (_ ∨ _))

instance decidableLegal : DecidablePred page.Legal
  | .text run =>
    have := List.decidableBAll page.HasChar run.toList
    inferInstanceAs (Decidable (run ≠ "" ∧ ∀ c ∈ run.toList, page.HasChar c))
  | .color _ => inferInstanceAs (Decidable (_ ∈ _))
  | .button _ => inferInstanceAs (Decidable True)
  | .control _ none => inferInstanceAs (Decidable (_ = _))
  | .control _ (some _) => inferInstanceAs (Decidable (_ ∨ _))

instance decidableLegalPiece : DecidablePred page.LegalPiece
  | .char c => inferInstanceAs (Decidable (page.HasChar c))
  | .fragment _ => inferInstanceAs (Decidable (_ ∧ _))

variable {page}

lemma mem_controls_of_lookup {code : Control} {entry : ℕ × ℕ}
    (h : page.controls.lookup code = some entry) : (code, entry) ∈ page.controls := by
  obtain ⟨before, after, hcontrols, -⟩ := List.lookup_eq_some_iff.mp h
  rw [hcontrols]
  exact List.mem_append_right before List.mem_cons_self

end CodePage

/-- The encodings that take one byte for a character. -/
inductive SingleByte
  | ocarina
  | majora
  | majoraEurope

namespace SingleByte

def encoding : SingleByte → Encoding
  | ocarina => .ootAscii
  | majora => .mmAscii
  | majoraEurope => .mmEuAscii

/-- The code page of the encoding. The European font has three letters more. -/
def page : SingleByte → CodePage
  | ocarina => .ocarina
  | majora => .majora 45
  | majoraEurope => .majora 48

end SingleByte

namespace SingleByte

/-- The meaning of a byte. -/
def meaning : SingleByte → ℕ → Meaning
  | ocarina => Ocarina.meaning
  | majora => Majora.meaning 0xAC
  | majoraEurope => Majora.meaning 0xAF

lemma lexer_eq (s : SingleByte) (b : UInt8) (rest : Bytes) :
    s.encoding.lexer b rest = (s.meaning b.toNat).lexeme rest := by
  cases s <;> rfl

end SingleByte

namespace Meaning

/-- The page spells what a byte means with this byte in front. -/
def Follows (page : CodePage) (b : ℕ) : Meaning → Prop
  | stop => page.stop = UInt8.ofNat b
  | colorMark => page.colorMark = [UInt8.ofNat b]
  | piece p => page.LegalPiece p ∧ page.spellPiece p = [UInt8.ofNat b]
  | control code size => page.controls.lookup code = some (b, size)
  | nothing => True

instance (page : CodePage) (b : ℕ) : DecidablePred (Follows page b)
  | stop => inferInstanceAs (Decidable (_ = _))
  | colorMark => inferInstanceAs (Decidable (_ = _))
  | piece _ => inferInstanceAs (Decidable (_ ∧ _))
  | control _ _ => inferInstanceAs (Decidable (_ = _))
  | nothing => inferInstanceAs (Decidable True)

end Meaning

namespace SingleByte

lemma follows_meaning (s : SingleByte) : ∀ b < 256, (s.meaning b).Follows s.page b := by
  cases s <;> decide +kernel

lemma meaning_stop (s : SingleByte) : s.meaning s.page.stop.toNat = .stop := by
  cases s <;> rfl

lemma meaning_ascii (s : SingleByte) :
    ∀ n ≤ 0x7E, 0x20 ≤ n → s.meaning n = .piece (.char (Char.ofNat n)) := by
  cases s <;> decide +kernel

lemma meaning_letter (s : SingleByte) :
    ∀ c ∈ s.page.letters, s.meaning (s.page.charByte c).toNat = .piece (.char c) := by
  have hall : s.page.letters.all fun c =>
      decide (s.meaning (s.page.charByte c).toNat = .piece (.char c)) := by
    cases s <;> decide +kernel
  intro c hc
  exact of_decide_eq_true (List.all_eq_true.mp hall c hc)

lemma meaning_color (s : SingleByte) : ∀ color ∈ s.page.colors,
    (s.page.colorMark = [] ∧
        s.meaning (s.page.colorByte color).toNat = .piece (.fragment (.color color))) ∨
      (s.page.colorMark = [0x05] ∧ s.meaning 0x05 = .colorMark ∧
        Ocarina.color? (s.page.colorByte color).toNat = some color) := by
  cases s <;> decide

lemma colorByte_of_marked {s : SingleByte} (h : s.page.colorMark ≠ []) :
    ∀ n < 256, ∀ color ∈ Ocarina.color? n,
      color ∈ s.page.colors ∧ s.page.colorByte color = UInt8.ofNat n := by
  cases s with
  | ocarina => decide +kernel
  | majora | majoraEurope => exact absurd rfl h

lemma meaning_button (s : SingleByte) (button : Button) :
    s.meaning (s.page.buttonByte button).toNat = .piece (.fragment (.button button)) := by
  cases s <;> cases button <;> rfl

lemma meaning_control (s : SingleByte) : ∀ entry ∈ s.page.controls,
    entry.2.1 < 256 ∧ s.meaning entry.2.1 = .control entry.1 entry.2.2 := by
  cases s <;> decide +kernel

lemma meaning_selfArgument (s : SingleByte) : ∀ entry ∈ s.page.selfArguments,
    entry.2 < 256 ∧ s.page.controls.lookup entry.1 = none ∧
      s.meaning entry.2 = .piece (.fragment (.control entry.1 (some entry.2))) := by
  cases s <;> decide +kernel

end SingleByte
end Cartridge.Message
