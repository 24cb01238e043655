import Cartridge.Proofs.Message.RoundTrip
import Cartridge.Proofs.Message.Units

/-!
# The form of a message that was read

Reading pushes one piece after the other onto the fragments before it. Whatever the pieces
are, the fragments end where the message ends and nowhere before, characters are joined as
far as they go, and a control code has the argument that the encoding gives it.
-/
namespace Cartridge.Message

/-- The size of the argument of a control code of Ocarina of Time, 0 where it has none. -/
def Ocarina.argumentSize? : Control → Option ℕ
  | .shift | .boxBreakDelayed | .fade | .itemIcon | .textSpeed | .highScore => some 1
  | .goto | .fade2 | .sound => some 2
  | .background => some 3
  | .boxBreak2 | .carriageReturn | .proceed | .delay | .delayEnd | .swampCruiseHits
  | .strayFairies | .reserved | .gameValue => none
  | _ => some 0

/-- The Japanese text has the same control codes with arguments of whole units. -/
def Japanese.argumentSize? (code : Control) : Option ℕ :=
  (Ocarina.argumentSize? code).map fun size => 2 * ((size + 1) / 2)

/-- The size of the argument of a control code of Majora's Mask, 0 where it has none. A code
that is spelled by its argument has one byte of it. -/
def Majora.argumentSize? : Control → Option ℕ
  | .shift | .reserved | .gameValue => some 1
  | .boxBreakDelayed | .fade | .delay | .delayEnd | .sound => some 2
  | .goto | .awaitButton | .fade2 | .ocarina | .itemIcon | .textSpeed | .marathonTime
  | .raceTime | .points | .unskippable | .fishWeight | .highScore | .time => none
  | _ => some 0

namespace Encoding

/-- The size of the argument of a control code, 0 where it has none. There is no size where
the encoding has no such code. -/
def argumentSize? : Encoding → Control → Option ℕ
  | ootAscii => Ocarina.argumentSize?
  | ootShiftJis => Japanese.argumentSize?
  | mmAscii | mmEuAscii => Majora.argumentSize?

/-- The encoding has the control code, and the code has this argument: one that fits its
bytes when the code takes an argument, and none otherwise. -/
def HasArgument (encoding : Encoding) (code : Control) (argument : Option ℕ) : Prop :=
  ∃ size ∈ encoding.argumentSize? code,
    (argument.isSome ↔ 0 < size) ∧ ∀ n ∈ argument, n < 256 ^ size

/-- Fragments that end with the end of the message, of which no other ends it, of which the
characters are joined and the control codes have their arguments. -/
structure NormalForm (encoding : Encoding) (fragments : List Fragment) : Prop where
  ends : ∃ before, fragments = before ++ [.control .stop none] ∧
    ∀ f ∈ before, f.code? ≠ some .stop
  joined : Fragment.Joined fragments
  arguments : ∀ code argument, .control code argument ∈ fragments →
    encoding.HasArgument code argument

/-- A piece that the encoding may put in front of the end. -/
def Proper (encoding : Encoding) : Piece → Prop
  | .char _ | .fragment (.color _) | .fragment (.button _) => True
  | .fragment (.text _) => False
  | .fragment (.control code argument) => code ≠ .stop ∧ encoding.HasArgument code argument

variable {encoding : Encoding}

lemma hasArgument_none {code : Control} (h : encoding.argumentSize? code = some 0) :
    encoding.HasArgument code none := ⟨0, h, by simp, by simp⟩

lemma hasArgument_stop : encoding.HasArgument .stop none :=
  hasArgument_none (by cases encoding <;> rfl)

lemma hasArgument_some {code : Control} {size n : ℕ} (h : encoding.argumentSize? code = some size)
    (hpos : 0 < size) (hlt : n < 256 ^ size) : encoding.HasArgument code (some n) := by
  refine ⟨size, h, by simpa using hpos, ?_⟩
  rintro _ ⟨rfl⟩
  exact hlt

end Encoding

namespace SingleByte

variable {s : SingleByte}

lemma argumentSize?_control (s : SingleByte) : ∀ entry ∈ s.page.controls,
    entry.1 ≠ .stop ∧ s.encoding.argumentSize? entry.1 = some entry.2.2 := by
  cases s <;> decide +kernel

lemma argumentSize?_selfArgument (s : SingleByte) : ∀ entry ∈ s.page.selfArguments,
    entry.1 ≠ .stop ∧ s.encoding.argumentSize? entry.1 = some 1 := by
  cases s <;> decide +kernel

lemma argumentSize?_of_page {code : Control} {size : ℕ}
    (h : s.page.argumentSize? code = some size) :
    code ≠ .stop ∧ s.encoding.argumentSize? code = some size := by
  obtain ⟨⟨b, size⟩, hlookup, rfl⟩ := Option.map_eq_some_iff.mp h
  exact argumentSize?_control s _ (CodePage.mem_controls_of_lookup hlookup)

/-- What the page of an encoding spells is proper. -/
lemma proper_of_legalPiece {p : Piece} (h : s.page.LegalPiece p) : s.encoding.Proper p := by
  cases p with
  | char c => trivial
  | fragment f =>
    obtain ⟨htext, hlegal⟩ := h
    cases f with
    | text run => exact absurd rfl htext
    | color color => trivial
    | button button => trivial
    | control code argument =>
      cases argument with
      | none =>
        obtain ⟨hstop, hsize⟩ := argumentSize?_of_page hlegal
        exact ⟨hstop, Encoding.hasArgument_none hsize⟩
      | some n =>
        rcases hlegal with hself | ⟨size, hsize, hpos, hlt⟩
        · obtain ⟨hbyte, -, -⟩ := meaning_selfArgument s _ hself
          obtain ⟨hstop, hsize⟩ := argumentSize?_selfArgument s _ hself
          exact ⟨hstop, Encoding.hasArgument_some hsize Nat.one_pos hbyte⟩
        · obtain ⟨hstop, hsize⟩ := argumentSize?_of_page hsize
          exact ⟨hstop, Encoding.hasArgument_some hsize hpos hlt⟩

end SingleByte

namespace Japanese

lemma argumentSize?_of_control? {unit : ℕ} {code : Control} {size : ℕ}
    (h : control? unit = some (code, size)) :
    code ≠ .stop ∧ argumentSize? code = some size := by
  unfold control? at h
  split at h <;> cases h <;> exact ⟨by decide, rfl⟩

lemma proper_of_item {char? : ℕ → ℕ → Option Char} {part : Bytes} {p : Piece}
    (h : Item char? part p) : Encoding.ootShiftJis.Proper p := by
  cases h with
  | @control lead trail argument code hcode =>
    obtain ⟨hstop, hsize⟩ := argumentSize?_of_control? hcode
    refine ⟨hstop, ?_⟩
    by_cases hnil : argument = []
    · rw [hnil] at hsize ⊢
      exact Encoding.hasArgument_none hsize
    · rw [Control.argumentOf, if_neg hnil]
      exact Encoding.hasArgument_some hsize (List.length_pos_of_ne_nil hnil)
        (Bytes.toNat_lt argument)
  | color | button | char => trivial

end Japanese

theorem Encoding.proper_of_lexer {encoding : Encoding} {b : UInt8} {rest : Bytes} {p : Piece}
    {more : ℕ} (h : encoding.lexer b rest = p.lexeme more) : encoding.Proper p := by
  have hsingle : ∀ s : SingleByte, s.encoding.lexer b rest = p.lexeme more →
      s.encoding.Proper p :=
    fun s h => SingleByte.proper_of_legalPiece (SingleByte.spellPiece_of_lexer h).1
  cases encoding with
  | ootAscii => exact hsingle .ocarina h
  | ootShiftJis => exact Japanese.proper_of_item (Japanese.item_of_lexer h).2
  | mmAscii => exact hsingle .majora h
  | mmEuAscii => exact hsingle .majoraEurope h

/-- All pieces in front of the end are proper, and every one takes a byte, as the end does. -/
theorem Lexer.Takes.proper {encoding : Encoding} {bytes : Bytes} {pieces : List Piece} {size : ℕ}
    (h : Takes encoding.lexer bytes pieces size) :
    (∀ p ∈ pieces, encoding.Proper p) ∧ pieces.length + 1 ≤ size := by
  induction h using Takes.induction with
  | stop => exact ⟨by simp, Nat.le_add_right 1 _⟩
  | piece head tail ih =>
    obtain ⟨hproper, hlength⟩ := ih
    refine ⟨List.forall_mem_cons.mpr ⟨Encoding.proper_of_lexer head, hproper⟩, ?_⟩
    rw [List.length_cons]
    omega

namespace Encoding

variable {encoding : Encoding} {pieces : List Piece}

lemma single_of_proper (h : ∀ p ∈ pieces, encoding.Proper p) : Piece.Single pieces := by
  intro f hf htext
  cases f with
  | text run => exact h _ hf
  | color | button | control => cases htext

/-- Joining proper pieces leaves the control codes as they are. -/
lemma hasArgument_of_mem_join (h : ∀ p ∈ pieces, encoding.Proper p) {code : Control}
    {argument : Option ℕ} (hmem : .control code argument ∈ Piece.join pieces) :
    code ≠ .stop ∧ encoding.HasArgument code argument := by
  obtain ⟨-, hpieces⟩ := Piece.joined_join (single_of_proper h)
  have hpiece : .fragment (.control code argument) ∈ pieces := by
    rw [← hpieces, List.mem_flatMap]
    exact ⟨_, hmem, List.mem_singleton_self _⟩
  exact h _ hpiece

theorem normalForm_join (h : ∀ p ∈ pieces, encoding.Proper p) :
    encoding.NormalForm (Piece.join pieces ++ [.control .stop none]) where
  ends := by
    refine ⟨Piece.join pieces, rfl, ?_⟩
    intro f hf hcode
    cases f with
    | control code argument => exact (hasArgument_of_mem_join h hf).1 (Option.some.inj hcode)
    | text | color | button => cases hcode
  joined :=
    Piece.joined_concat (Piece.joined_join (single_of_proper h)).1 nofun
      fun _ _ htext => Bool.false_ne_true htext.2
  arguments code argument hmem := by
    rcases List.mem_append.mp hmem with hmem | hmem
    · exact (hasArgument_of_mem_join h hmem).2
    · cases List.mem_singleton.mp hmem
      exact hasArgument_stop

end Encoding

/-- Whatever an encoding reads is in normal form, and has no more fragments than bytes. -/
theorem Encoding.normalForm_of_read {encoding : Encoding} {c c' : Cursor}
    {fragments : List Fragment} (h : encoding.lexer.read c = (.ok fragments, c')) :
    encoding.NormalForm fragments ∧ c.pos + fragments.length ≤ c'.pos := by
  obtain ⟨pieces, size, htakes, rfl, rfl⟩ := Lexer.read_eq_ok_iff.mp h
  obtain ⟨hproper, hlength⟩ := htakes.proper
  refine ⟨normalForm_join hproper, ?_⟩
  have hjoin := Piece.length_join_le pieces
  have hpos : (c.advance size).pos = c.pos + size := rfl
  rw [List.length_append, List.length_singleton, hpos]
  omega

/-- Characters are joined up to a colour, and the argument of a sound has two bytes. -/
theorem Encoding.normalForm_of_read_sound :
    let bytes := [0xAE, 0x45, 0x68, 0x01, 0x1E, 0x69, 0xBF, 0xBF]
    let fragments : List Fragment :=
      [.text "¿Eh", .color .red, .control .sound (some 0x69BF), .control .stop none]
    mmEuAscii.lexer.read ⟨bytes, 0⟩ = (.ok fragments, ⟨bytes, 8⟩) ∧
      mmEuAscii.NormalForm fragments ∧ 0 + fragments.length ≤ 8 := by
  intro bytes fragments
  have htakes : Lexer.Takes mmEuAscii.lexer bytes [.char '¿', .char 'E', .char 'h',
      .fragment (.color .red), .fragment (.control .sound (some 0x69BF))]
      (1 + 0 + (1 + 0 + (1 + 0 + (1 + 0 + (1 + 2 + (1 + 0)))))) :=
    .piece rfl (.piece rfl (.piece rfl (.piece rfl (.piece rfl (.stop rfl)))))
  have hread : mmEuAscii.lexer.read ⟨bytes, 0⟩ = (.ok fragments, ⟨bytes, 8⟩) :=
    Lexer.read_eq_ok_iff.mpr ⟨_, _, htakes, by decide, rfl⟩
  exact ⟨hread, normalForm_of_read hread⟩

end Cartridge.Message
