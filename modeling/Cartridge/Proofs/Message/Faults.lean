import Cartridge.Proofs.Message.Locality
import Cartridge.Proofs.Message.Units

/-!
# Where a reading fails

A reading fails at bytes that mean nothing, which it tells, or for want of bytes. The bytes told
are those in front of the cursor, and whole lexemes stand before them: with an end of the message
in their place the text is read, up to this end. Where bytes are lacking the cursor stands at the
place told, which is no further than the end of the buffer.
-/
namespace Cartridge.Message

lemma Ending.eq_bad_of_map {α β : Type} {f : α → β} {ending : Ending α} {bytes : Bytes}
    {reason : Option Reason} (h : ending.map f = .bad bytes reason) :
    ending = .bad bytes reason := by
  cases ending with
  | done | short => cases h
  | bad =>
    cases h
    rfl

namespace Lexeme

/-- A control code lacks bytes behind the bytes of its own. -/
lemma taken_of_control {code : Control} {size more taken : ℕ} {rest : Bytes}
    (h : control code size more rest = .short taken) : taken = more + 1 := by
  unfold control at h
  split at h
  · cases h
  · split at h
    · cases h
    · exact (Lexeme.short.inj h).symm

lemma taken_of_meaning {meaning : Meaning} {taken : ℕ} {rest : Bytes}
    (h : meaning.lexeme rest = .short taken) : taken = 1 := by
  cases meaning with
  | stop | nothing => cases h
  | piece p => cases p <;> cases h
  | control code size => exact taken_of_control h
  | colorMark =>
    simp only [Meaning.lexeme, Ocarina.colorLexeme] at h
    split at h
    · exact (Lexeme.short.inj h).symm
    · split at h <;> cases h

lemma taken_le_of_japanese {char? : ℕ → ℕ → Option Char} {lead : UInt8} {taken : ℕ} {rest : Bytes}
    (h : Japanese.lexer char? lead rest = .short taken) : taken ≤ rest.length + 1 := by
  cases rest with
  | nil =>
    cases h
    exact Nat.zero_le _
  | cons trail behind =>
    have htwo : taken = 2 := by
      simp only [Japanese.lexer] at h
      split at h
      · cases h
      split at h
      · unfold Japanese.colorLexeme at h
        split at h
        · split at h <;> cases h
        · exact (Lexeme.short.inj h).symm
      split at h
      · exact taken_of_control h
      · cases h
      · unfold Japanese.charLexeme at h
        split at h
        · split at h <;> cases h
        · cases h
    rw [htwo, List.length_cons]
    omega

/-- Of a lexeme that lacks bytes no more are complete than there are. -/
theorem taken_le {encoding : Encoding} {b : UInt8} {taken : ℕ} {rest : Bytes}
    (h : encoding.lexer b rest = .short taken) : taken ≤ rest.length + 1 := by
  have hsingle : ∀ s : SingleByte, s.encoding.lexer b rest = .short taken →
      taken ≤ rest.length + 1 := by
    intro s h
    rw [s.lexer_eq] at h
    rw [taken_of_meaning h]
    omega
  cases encoding with
  | ootAscii => exact hsingle .ocarina h
  | ootShiftJis => exact taken_le_of_japanese h
  | mmAscii => exact hsingle .majora h
  | mmEuAscii => exact hsingle .majoraEurope h

end Lexeme

namespace Lexer

variable {encoding : Encoding} {bytes : Bytes} {size : ℕ}

lemma Reads.size_le {ending : Ending (List Piece)} (h : encoding.lexer.Reads bytes size ending) :
    size ≤ bytes.length := by
  have hwithin : ∀ {b rest more}, (encoding.lexer b rest).more? = some more →
      more ≤ rest.length := by
    intro b rest more hmore
    have := ((Lexeme.local_lexer encoding b).within hmore).2
    omega
  induction h with
  | nothing => exact Nat.le_refl 0
  | short head => exact Lexeme.taken_le head
  | @stop b rest more head =>
    have := hwithin (congrArg Lexeme.more? head)
    rw [List.length_cons]
    omega
  | @bad b rest more reason head =>
    have := hwithin (congrArg Lexeme.more? head)
    rw [List.length_cons]
    omega
  | @piece b rest piece more size ending head tail ih =>
    have := hwithin (by rw [head, Lexeme.more?_lexeme])
    rw [List.length_drop] at ih
    rw [List.length_cons]
    omega

/-- The lexer takes pieces off bytes to the last of them, whatever stands behind. -/
def Passes (lexer : Lexer) (front : Bytes) (pieces : List Piece) : Prop :=
  ∀ {behind pieces' size}, Takes lexer behind pieces' size →
    Takes lexer (front ++ behind) (pieces ++ pieces') (front.length + size)

lemma passes_nil (lexer : Lexer) : Passes lexer [] [] := by
  intro behind pieces' size h
  simpa using h

lemma Passes.cons {b : UInt8} {rest front : Bytes} {p : Piece} {pieces : List Piece} {more : ℕ}
    (head : encoding.lexer b rest = p.lexeme more) (tail : Passes encoding.lexer front pieces) :
    Passes encoding.lexer (b :: (rest.take more ++ front)) (p :: pieces) := by
  intro behind pieces' size h
  have hmore : (encoding.lexer b rest).more? = some more := by rw [head, Lexeme.more?_lexeme]
  have hlocal := Lexeme.local_lexer encoding b
  have hlength : (rest.take more).length = more := by
    have := (hlocal.within hmore).2
    exact List.length_take_of_le (by omega)
  have hhead : encoding.lexer b (rest.take more ++ (front ++ behind)) = p.lexeme more :=
    (hlocal.stable hmore (List.prefix_append _ _)).trans head
  have hsize : (b :: (rest.take more ++ front)).length + size =
      1 + more + (front.length + size) := by
    rw [List.length_cons, List.length_append, hlength]
    omega
  rw [hsize, List.cons_append, List.append_assoc, List.cons_append]
  refine .piece hhead ?_
  rw [List.drop_left' hlength]
  exact tail h

/-- A reading that ends at bytes that mean nothing passes the bytes in front of them, and ends at
once where it begins with them. -/
theorem Reads.exists_front {sequence : Bytes} {reason : Option Reason}
    {ending : Ending (List Piece)} (h : encoding.lexer.Reads bytes size ending)
    (hending : ending = .bad sequence reason) :
    ∃ front pieces behind, bytes = front ++ (sequence ++ behind) ∧
      size = front.length + sequence.length ∧ sequence ≠ [] ∧
      Passes encoding.lexer front pieces ∧
      encoding.lexer.Reads (sequence ++ behind) sequence.length (.bad sequence reason) := by
  induction h with
  | stop | nothing | short => cases hending
  | @bad b rest more reason head =>
    cases hending
    have hmore := ((Lexeme.local_lexer encoding b).within (congrArg Lexeme.more? head)).2
    have hlength : (b :: rest.take more).length = 1 + more := by
      rw [List.length_cons, List.length_take_of_le (by omega), Nat.add_comm]
    refine ⟨[], [], rest.drop more, ?_, ?_, List.cons_ne_nil _ _, passes_nil _, ?_⟩
    · rw [List.nil_append, List.cons_append, List.take_append_drop]
    · rw [hlength, List.length_nil, Nat.zero_add]
    · rw [hlength, List.cons_append, List.take_append_drop]
      exact .bad head
  | @piece b rest piece more size ending head tail ih =>
    obtain ⟨front, pieces, behind, hbytes, rfl, hne, hpasses, hbad⟩ :=
      ih (Ending.eq_bad_of_map hending)
    refine ⟨_, _, behind, ?_, ?_, hne, hpasses.cons head, hbad⟩
    · rw [List.cons_append, List.append_assoc, ← hbytes, List.take_append_drop]
    · have hmore : (encoding.lexer b rest).more? = some more := by rw [head, Lexeme.more?_lexeme]
      have := ((Lexeme.local_lexer encoding b).within hmore).2
      rw [List.length_cons, List.length_append, List.length_take_of_le (by omega)]
      omega

end Lexer

lemma Cursor.rest_append (before bytes : Bytes) : rest ⟨before ++ bytes, before.length⟩ = bytes :=
  List.drop_left

/-- A cursor that is not at the end stands behind as many bytes as its position tells. -/
lemma Cursor.exists_before {c : Cursor} (h : c.rest ≠ []) :
    ∃ before, c = ⟨before ++ c.rest, before.length⟩ := by
  have hlt : c.pos < c.bytes.length := by
    by_contra hle
    exact h (List.drop_eq_nil_of_le (Nat.le_of_not_lt hle))
  refine ⟨c.bytes.take c.pos, ?_⟩
  rw [List.length_take_of_le (Nat.le_of_lt hlt), rest, List.take_append_drop]

namespace Encoding

variable {encoding : Encoding}

def stopBytes : Encoding → Bytes
  | ootAscii => [0x02]
  | ootShiftJis => [0x81, 0x70]
  | mmAscii | mmEuAscii => [0xBF]

lemma takes_stopBytes (encoding : Encoding) :
    encoding.lexer.Takes encoding.stopBytes [] encoding.stopBytes.length := by
  cases encoding with
  | ootAscii => exact .stop (rfl : Ocarina.lexer 0x02 [] = .stop 0)
  | ootShiftJis =>
    have hstop : Japanese.lexer DoubleByte.char? 0x81 [0x70] = .stop 1 :=
      Japanese.lexer_eq_stop_iff.mpr ⟨rfl, [], rfl⟩
    exact .stop hstop
  | mmAscii => exact .stop (rfl : Majora.lexer 0xAC 0xBF [] = .stop 0)
  | mmEuAscii => exact .stop (rfl : Majora.lexer 0xAF 0xBF [] = .stop 0)

/-- Bytes that the lexer passes are read up to an end of the message behind them. -/
lemma read_stopBytes {front : Bytes} {pieces : List Piece}
    (h : encoding.lexer.Passes front pieces) (before : Bytes) :
    encoding.lexer.read ⟨before ++ (front ++ encoding.stopBytes), before.length⟩ =
      (.ok (Piece.join pieces ++ [.control .stop none]),
        ⟨before ++ (front ++ encoding.stopBytes),
          before.length + (front.length + encoding.stopBytes.length)⟩) := by
  have htakes := h encoding.takes_stopBytes
  rw [List.append_nil] at htakes
  refine Lexer.read_eq_ok_iff.mpr ⟨pieces, _, ?_, rfl, rfl⟩
  rwa [Cursor.rest_append]

/-- A reading that fails at bytes that mean nothing passed the bytes between its start and these,
and a reading that starts with these fails at once. -/
lemma exists_front_of_read {c c' : Cursor} {sequence : Bytes} {reason : Option Reason}
    (h : encoding.lexer.read c = (.error (.badSequence sequence reason), c')) :
    ∃ before front pieces behind, sequence ≠ [] ∧
      c = ⟨before ++ (front ++ (sequence ++ behind)), before.length⟩ ∧
      c' = c.advance (front.length + sequence.length) ∧
      encoding.lexer.Passes front pieces ∧
      encoding.lexer.Reads (sequence ++ behind) sequence.length (.bad sequence reason) := by
  obtain ⟨size, ending, hreads⟩ := encoding.lexer.exists_reads c.rest
  rw [Lexer.read_of_reads hreads] at h
  obtain ⟨hresult, rfl⟩ := Prod.mk.inj h
  cases ending with
  | done | short => cases hresult
  | bad sequence reason =>
    cases hresult
    obtain ⟨front, pieces, behind, hrest, rfl, hne, hpasses, hbad⟩ := hreads.exists_front rfl
    obtain ⟨before, hc⟩ := c.exists_before (by simp [hrest, hne])
    rw [hrest] at hc
    exact ⟨before, front, pieces, behind, hne, hc, rfl, hpasses, hbad⟩

/-- A reading that lacks bytes tells where it stopped, which is in the buffer. -/
lemma pos_of_read {c c' : Cursor} {position : ℕ}
    (h : encoding.lexer.read c = (.error (.unexpectedEnd position), c')) :
    c'.bytes = c.bytes ∧ position = c'.pos ∧
      (c.pos ≤ c.bytes.length → position ≤ c.bytes.length) := by
  obtain ⟨size, ending, hreads⟩ := encoding.lexer.exists_reads c.rest
  have hsize := hreads.size_le
  rw [Cursor.rest, List.length_drop] at hsize
  rw [Lexer.read_of_reads hreads] at h
  obtain ⟨hresult, rfl⟩ := Prod.mk.inj h
  cases ending with
  | done | bad => cases hresult
  | short =>
    cases hresult
    refine ⟨rfl, rfl, fun hle => ?_⟩
    omega

/-- A reading from `start` on comes to bytes that mean nothing at a place of the buffer. What stands
before them is whole: with an end of the message behind it, it is read up to this end. -/
structure FaultAt (encoding : Encoding) (bytes : Bytes) (start place : ℕ) (sequence : Bytes) :
    Prop where
  ne_nil : sequence ≠ []
  start_le : start ≤ place
  bytes_eq : bytes.extract place (place + sequence.length) = sequence
  whole : ∃ fragments,
    encoding.lexer.read ⟨bytes.take place ++ encoding.stopBytes, start⟩ = (.ok fragments,
      ⟨bytes.take place ++ encoding.stopBytes, place + encoding.stopBytes.length⟩)

lemma faultAt_append {front sequence : Bytes} {pieces : List Piece}
    (hpasses : encoding.lexer.Passes front pieces) (hne : sequence ≠ []) (before behind : Bytes) :
    encoding.FaultAt (before ++ (front ++ (sequence ++ behind))) before.length
      (before.length + front.length) sequence := by
  have hplace : (before ++ front).length = before.length + front.length := List.length_append
  rw [← List.append_assoc, ← hplace]
  refine ⟨hne, ?_, ?_, Piece.join pieces ++ [.control .stop none], ?_⟩
  · rw [hplace]
    exact Nat.le_add_right _ _
  · rw [List.extract_eq_take_drop, Nat.add_sub_cancel_left, List.drop_left, List.take_left]
  · rw [List.take_left, List.append_assoc, hplace, Nat.add_assoc]
    exact read_stopBytes hpasses before

/-- A reading that fails at bytes that mean nothing tells these bytes, which stand in front of the
cursor and which a reading from there on tells too; before them it found nothing wrong and no end.
A reading that lacks bytes tells the position of the cursor, which is in the buffer or at its
end. -/
theorem faultAt_and_pos_of_read_error (encoding : Encoding) (c : Cursor) :
    (∀ sequence reason c',
      encoding.lexer.read c = (.error (.badSequence sequence reason), c') →
      ∃ place, c' = ⟨c.bytes, place + sequence.length⟩ ∧
        encoding.FaultAt c.bytes c.pos place sequence ∧
        encoding.lexer.read ⟨c.bytes, place⟩ = (.error (.badSequence sequence reason), c')) ∧
    ∀ position c', encoding.lexer.read c = (.error (.unexpectedEnd position), c') →
      c'.bytes = c.bytes ∧ position = c'.pos ∧
        (c.pos ≤ c.bytes.length → position ≤ c.bytes.length) := by
  refine ⟨?_, fun position c' => pos_of_read⟩
  intro sequence reason c' h
  obtain ⟨before, front, pieces, behind, hne, rfl, rfl, hpasses, hbad⟩ := exists_front_of_read h
  refine ⟨before.length + front.length, ?_, faultAt_append hpasses hne before behind, ?_⟩
  · rw [Cursor.advance, Nat.add_assoc]
  · have hrest : Cursor.rest ⟨before ++ (front ++ (sequence ++ behind)),
        before.length + front.length⟩ = sequence ++ behind := by
      rw [← List.append_assoc, ← List.length_append, Cursor.rest_append]
    rw [Lexer.read_of_reads (hrest ▸ hbad)]
    simp only [Cursor.advance, Nat.add_assoc]
    rfl

/-- The bytes of the end stand in the argument of a jump, in front of a colour that there is not;
where the last byte of the colour is cut off, the reading stops behind the unit of a colour. -/
theorem faultAt_and_pos_of_read_error_color :
    let bytes := [0x41, 0x81, 0xCB, 0x81, 0x70, 0x00, 0x0B, 0x00, 0x30, 0x81, 0x70]
    let color := [0x00, 0x0B, 0x00, 0x30]
    (ootShiftJis.lexer.read ⟨bytes, 1⟩ =
        (.error (.badSequence color (some .unknownColor)), ⟨bytes, 9⟩) ∧
      ootShiftJis.FaultAt bytes 1 5 color) ∧
    ootShiftJis.lexer.read ⟨bytes.take 8, 1⟩ =
        (.error (.unexpectedEnd 7), ⟨bytes.take 8, 7⟩) ∧
      7 ≤ (bytes.take 8).length := by
  intro bytes color
  have hbad : ootShiftJis.lexer.read ⟨bytes, 1⟩ =
      (.error (.badSequence color (some .unknownColor)), ⟨bytes, 9⟩) := by cbv
  have hshort : ootShiftJis.lexer.read ⟨bytes.take 8, 1⟩ =
      (.error (.unexpectedEnd 7), ⟨bytes.take 8, 7⟩) := by cbv
  obtain ⟨place, hplace, hfault, -⟩ :=
    (faultAt_and_pos_of_read_error ootShiftJis ⟨bytes, 1⟩).1 _ _ _ hbad
  obtain rfl : place = 5 := by
    have hpos : 9 = place + 4 := congrArg Cursor.pos hplace
    omega
  have hle := ((faultAt_and_pos_of_read_error ootShiftJis ⟨bytes.take 8, 1⟩).2 _ _ hshort).2.2
  exact ⟨⟨hbad, hfault⟩, hshort, hle (by decide)⟩

end Encoding

end Cartridge.Message
