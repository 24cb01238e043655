import Cartridge.Proofs.Message.CodePage

/-!
# Units of Japanese text

Japanese text is a sequence of items: a control code with its argument, a colour, a button,
or a character, whose unit is any other that a table of characters knows. The reader reads
exactly such sequences, up to the unit that ends a message. What the bytes of an argument
are does not matter to it, nor what stands at odd offsets.
-/
namespace Cartridge

lemma DoubleByte.rows_getElem? {r : ℕ} (h : r < 120) :
    rows[r]? = some (row r).toList.toArray := by
  simp [rows, h]

namespace Message

/-- The argument of a control code that these bytes spell, none when there are no bytes. -/
def Control.argumentOf (argument : Bytes) : Option ℕ :=
  if argument = [] then none else some (Bytes.toNat argument)

namespace Lexeme

/-- A control code and its argument are read, whatever stands behind them. -/
lemma control_argument (code : Control) (front argument rest : Bytes) :
    control code argument.length front.length (front ++ (argument ++ rest)) =
      (Piece.fragment (.control code (Control.argumentOf argument))).lexeme
        (front.length + argument.length) := by
  by_cases hnil : argument = []
  · rw [hnil]
    rfl
  · have hpos : 0 < argument.length := List.length_pos_of_ne_nil hnil
    have hle : argument.length ≤ (argument ++ rest).length := by simp
    rw [control_behind code hpos, if_pos hle, List.take_left, Control.argumentOf, if_neg hnil]
    rfl

/-- A control code that was read stands in front of the bytes of its argument. -/
lemma exists_argument {code : Control} {size more : ℕ} {front rest : Bytes} {p : Piece}
    (h : control code size front.length (front ++ rest) = p.lexeme more) :
    size ≤ rest.length ∧ more = front.length + size ∧
      p = .fragment (.control code (Control.argumentOf (rest.take size))) := by
  rcases control_behind_eq_lexeme h with ⟨rfl, rfl, rfl⟩ | ⟨hpos, rfl, hle, rfl⟩
  · exact ⟨Nat.zero_le _, rfl, rfl⟩
  · have hne : rest.take size ≠ [] := by
      intro hnil
      have hlength := List.length_take_of_le hle
      rw [hnil, List.length_nil] at hlength
      omega
    rw [Control.argumentOf, if_neg hne]
    exact ⟨hle, rfl, rfl⟩

end Lexeme

namespace Japanese

lemma unit_inj {lead trail lead' trail' : UInt8} (h : unit lead trail = unit lead' trail') :
    lead = lead' ∧ trail = trail' := by
  have htrail := trail.toNat_lt
  have htrail' := trail'.toNat_lt
  unfold unit at h
  exact ⟨UInt8.toNat.inj (by omega), UInt8.toNat.inj (by omega)⟩

lemma unit_stop : unit 0x81 0x70 = stopUnit := by decide

lemma unit_color : unit 0x00 0x0B = colorUnit := by decide

/-- A unit that means nothing but the character that it may have. -/
structure Free (u : ℕ) : Prop where
  stop : u ≠ stopUnit
  color : u ≠ colorUnit
  control : control? u = none
  button : u < 0x839F ∨ 0x83AB < u

variable (char? : ℕ → ℕ → Option Char)

/-- The bytes of an item and the piece that it adds to a message. The second bytes of the
colours and of the buttons are those of the western encoding, and the characters of the units
are those of a table. -/
inductive Item : Bytes → Piece → Prop
  | control {lead trail : UInt8} {argument : Bytes} {code : Control}
      (hcode : control? (unit lead trail) = some (code, argument.length)) :
      Item (lead :: trail :: argument) (.fragment (.control code (Control.argumentOf argument)))
  | color {n : ℕ} {color : TextColor} (hcolor : CodePage.ocarina.colors[n]? = some color) :
      Item [0x00, 0x0B, 0x00, UInt8.ofNat (0x40 + n)] (.fragment (.color color))
  | button {n : ℕ} {button : Button} (hbutton : Button.all[n]? = some button) :
      Item [0x83, UInt8.ofNat (0x9F + n)] (.fragment (.button button))
  | char {lead trail : UInt8} {c : Char} (hlead : DoubleByte.isLead lead.toNat)
      (hfree : Free (unit lead trail)) (hchar : char? lead.toNat trail.toNat = some c) :
      Item [lead, trail] (.char c)

variable {char?}

/-- The argument of a control code has whole units. -/
lemma size_of_control? {u size : ℕ} {code : Control} (h : control? u = some (code, size)) :
    size = 0 ∨ size = 2 ∨ size = 4 := by
  unfold control? at h
  split at h <;> cases h <;> decide

lemma ne_of_control? {u : ℕ} {entry : Control × ℕ} (h : control? u = some entry) :
    u ≠ stopUnit ∧ u ≠ colorUnit := by
  constructor <;> rintro rfl <;> cases h

lemma color?_eq_some_iff {code : UInt8} {color : TextColor} :
    Ocarina.color? code.toNat = some color ↔
      ∃ n, CodePage.ocarina.colors[n]? = some color ∧ code = UInt8.ofNat (0x40 + n) := by
  constructor
  · intro h
    have hall : ∀ b < 256, ∀ color ∈ Ocarina.color? b,
        0x40 ≤ b ∧ CodePage.ocarina.colors[b - 0x40]? = some color := by decide +kernel
    obtain ⟨hge, hcolor⟩ := hall code.toNat code.toNat_lt color h
    refine ⟨code.toNat - 0x40, hcolor, ?_⟩
    rw [Nat.add_sub_cancel' hge, UInt8.ofNat_toNat]
  · rintro ⟨n, hcolor, rfl⟩
    obtain ⟨hlt, -⟩ := List.getElem?_eq_some_iff.mp hcolor
    have hall : ∀ n < CodePage.ocarina.colors.length,
        Ocarina.color? (UInt8.ofNat (0x40 + n)).toNat = CodePage.ocarina.colors[n]? := by decide
    rw [hall n hlt, hcolor]

lemma button?_eq_some_iff {u : ℕ} {f : Fragment} :
    button? u = some f ↔
      ∃ n button, Button.all[n]? = some button ∧ u = 0x839F + n ∧ f = .button button := by
  unfold button? buttonAt?
  constructor
  · intro h
    split at h
    · next hge =>
      obtain ⟨button, hbutton, rfl⟩ := Option.map_eq_some_iff.mp h
      exact ⟨u - 0x839F, button, hbutton, (Nat.add_sub_cancel' hge).symm, rfl⟩
    · cases h
  · rintro ⟨n, button, hbutton, rfl, rfl⟩
    rw [if_pos (Nat.le_add_right _ n), Nat.add_sub_cancel_left, hbutton]
    rfl

lemma button?_eq_none_iff {u : ℕ} : button? u = none ↔ u < 0x839F ∨ 0x83AB < u := by
  have hlength : Button.all.length = 13 := rfl
  unfold button? buttonAt?
  split
  · rw [Option.map_eq_none_iff, List.getElem?_eq_none_iff, hlength]
    omega
  · simp only [true_iff]
    omega

/-- The units of the buttons end no message and are no colour or control units. -/
lemma unit_button : ∀ n < Button.all.length,
    unit 0x83 (UInt8.ofNat (0x9F + n)) = 0x839F + n ∧ 0x839F + n ≠ stopUnit ∧
      0x839F + n ≠ colorUnit ∧ control? (0x839F + n) = none := by
  decide

lemma colorLexeme_eq_lexeme {rest : Bytes} {p : Piece} {more : ℕ}
    (h : colorLexeme rest = p.lexeme more) :
    ∃ code behind color, rest = 0x00 :: code :: behind ∧ more = 3 ∧
      p = .fragment (.color color) ∧ Ocarina.color? code.toNat = some color := by
  unfold colorLexeme at h
  split at h
  · next high code behind =>
    split at h
    · next color hcolor =>
      have hhead : (Piece.fragment (.color color)).lexeme 3 = p.lexeme more := h
      obtain ⟨rfl, rfl⟩ := Piece.lexeme_inj hhead
      split_ifs at hcolor with hhigh
      rw [hhigh]
      exact ⟨code, behind, color, rfl, rfl, rfl, hcolor⟩
    · cases p <;> cases h
  · cases p <;> cases h

lemma charLexeme_eq_lexeme {lead trail more : ℕ} {p : Piece}
    (h : charLexeme char? lead trail = p.lexeme more) :
    ∃ c, DoubleByte.isLead lead ∧ char? lead trail = some c ∧ more = 1 ∧ p = .char c := by
  unfold charLexeme at h
  split_ifs at h with hlead
  · split at h
    · next c hchar =>
      have hhead : (Piece.char c).lexeme 1 = p.lexeme more := h
      obtain ⟨rfl, rfl⟩ := Piece.lexeme_inj hhead
      exact ⟨c, hlead, hchar, rfl, rfl⟩
    · cases p <;> cases h
  · cases p <;> cases h

theorem Item.readsOff {part : Bytes} {p : Piece} (h : Item char? part p) :
    (lexer char?).ReadsOff part p := by
  cases h with
  | @control lead trail argument code hcode =>
    refine ⟨lead, trail :: argument, rfl, fun rest => ?_⟩
    obtain ⟨hstop, hcolor⟩ := ne_of_control? hcode
    have hlexeme := Lexeme.control_argument code [trail] argument rest
    rw [List.length_singleton, Nat.add_comm] at hlexeme
    simp only [lexer, List.cons_append, if_neg hstop, if_neg hcolor, hcode]
    exact hlexeme
  | @color n color hcolor =>
    refine ⟨0x00, _, rfl, fun rest => ?_⟩
    have hcode := color?_eq_some_iff.mpr ⟨n, hcolor, rfl⟩
    have hstop : colorUnit ≠ stopUnit := by decide
    simp only [lexer, List.cons_append, List.nil_append, unit_color, if_neg hstop, colorLexeme,
      if_true, hcode]
    rfl
  | @button n button hbutton =>
    refine ⟨0x83, [UInt8.ofNat (0x9F + n)], rfl, fun rest => ?_⟩
    obtain ⟨hlt, -⟩ := List.getElem?_eq_some_iff.mp hbutton
    obtain ⟨hunit, hstop, hcolor, hcontrol⟩ := unit_button n hlt
    have hplace := button?_eq_some_iff.mpr ⟨n, button, hbutton, rfl, rfl⟩
    simp only [lexer, List.singleton_append, hunit, if_neg hstop, if_neg hcolor, hcontrol,
      hplace]
    rfl
  | @char lead trail c hlead hfree hchar =>
    refine ⟨lead, [trail], rfl, fun rest => ?_⟩
    have hbutton := button?_eq_none_iff.mpr hfree.button
    simp only [lexer, List.singleton_append, if_neg hfree.stop, if_neg hfree.color,
      hfree.control, hbutton, charLexeme, if_pos hlead, hchar]
    rfl

/-- What the lexer reads is an item, with the bytes read. -/
theorem item_of_lexer {lead : UInt8} {rest : Bytes} {p : Piece} {more : ℕ}
    (h : lexer char? lead rest = p.lexeme more) :
    more ≤ rest.length ∧ Item char? (lead :: rest.take more) p := by
  cases rest with
  | nil => cases p <;> cases h
  | cons trail rest =>
    simp only [lexer] at h
    split_ifs at h with hstop hcolor
    · cases p <;> cases h
    · obtain ⟨code, behind, color, rfl, rfl, rfl, hcode⟩ := colorLexeme_eq_lexeme h
      obtain ⟨rfl, rfl⟩ := unit_inj (hcolor.trans unit_color.symm)
      obtain ⟨n, hn, rfl⟩ := color?_eq_some_iff.mp hcode
      exact ⟨by simp, .color hn⟩
    · split at h
      · next code size hcontrol =>
        have hbehind : Lexeme.control code size [trail].length ([trail] ++ rest) =
            p.lexeme more := h
        obtain ⟨hle, rfl, rfl⟩ := Lexeme.exists_argument hbehind
        rw [← List.length_take_of_le hle] at hcontrol
        rw [List.length_singleton, List.length_cons, Nat.add_comm, List.take_succ_cons]
        exact ⟨by omega, .control hcontrol⟩
      · next f hcontrol hbutton =>
        obtain ⟨n, button, hn, hunit, rfl⟩ := button?_eq_some_iff.mp hbutton
        have hhead : (Piece.fragment (.button button)).lexeme 1 = p.lexeme more := h
        obtain ⟨rfl, rfl⟩ := Piece.lexeme_inj hhead
        obtain ⟨hlt, -⟩ := List.getElem?_eq_some_iff.mp hn
        rw [← (unit_button n hlt).1] at hunit
        obtain ⟨rfl, rfl⟩ := unit_inj hunit
        exact ⟨by simp, .button hn⟩
      · next hcontrol hbutton =>
        obtain ⟨c, hlead, hchar, rfl, rfl⟩ := charLexeme_eq_lexeme h
        have hfree : Free (unit lead trail) :=
          ⟨hstop, hcolor, hcontrol, button?_eq_none_iff.mp hbutton⟩
        exact ⟨by simp, .char hlead hfree hchar⟩

/-- The lexer ends a message at the unit that ends it, and nowhere else. -/
theorem lexer_eq_stop_iff {lead : UInt8} {rest : Bytes} {more : ℕ} :
    lexer char? lead rest = .stop more ↔
      more = 1 ∧ ∃ behind, lead :: rest = 0x81 :: 0x70 :: behind := by
  constructor
  · intro h
    cases rest with
    | nil => cases h
    | cons trail rest =>
      simp only [lexer] at h
      split_ifs at h with hstop hcolor
      · cases h
        obtain ⟨rfl, rfl⟩ := unit_inj (hstop.trans unit_stop.symm)
        exact ⟨rfl, rest, rfl⟩
      · unfold colorLexeme at h
        split at h
        · split at h <;> cases h
        · cases h
      · split at h
        · unfold Lexeme.control at h
          split_ifs at h
          split at h <;> cases h
        · cases h
        · unfold charLexeme at h
          split_ifs at h
          split at h <;> cases h
  · rintro ⟨rfl, behind, hbytes⟩
    cases hbytes
    simp only [lexer, unit_stop, if_true]

/-- No item begins with the unit that ends a message. -/
lemma Item.not_prefix {part : Bytes} {p : Piece} (h : Item char? part p) :
    ¬ [0x81, 0x70] <+: part := by
  rintro ⟨behind, rfl⟩
  obtain ⟨lead, tail, hpart, hlexeme⟩ := h.readsOff
  have hstop : lexer char? lead (tail ++ []) = .stop 1 :=
    lexer_eq_stop_iff.mpr ⟨rfl, behind, by rw [List.append_nil, ← hpart]; rfl⟩
  rw [hlexeme] at hstop
  cases p <;> cases hstop

lemma Item.two_dvd_length {part : Bytes} {p : Piece} (h : Item char? part p) :
    2 ∣ part.length := by
  cases h with
  | control hcode =>
    have hsize := size_of_control? hcode
    rw [List.length_cons, List.length_cons]
    omega
  | color => exact ⟨2, rfl⟩
  | button | char => exact ⟨1, rfl⟩

lemma two_dvd_length_flatten {parts : List Bytes} {pieces : List Piece}
    (h : List.Forall₂ (Item char?) parts pieces) : 2 ∣ parts.flatten.length := by
  induction h with
  | nil => exact Nat.dvd_zero 2
  | cons hitem _ ih =>
    rw [List.flatten_cons, List.length_append]
    exact Nat.dvd_add hitem.two_dvd_length ih

lemma single_of_items {parts : List Bytes} {pieces : List Piece}
    (h : List.Forall₂ (Item char?) parts pieces) : Piece.Single pieces := by
  intro f hf htext
  induction h with
  | nil => cases hf
  | cons hitem _ ih =>
    rcases List.mem_cons.mp hf with rfl | hf
    · cases hitem <;> cases htext
    · exact ih hf

lemma exists_item_of_mem {parts : List Bytes} {pieces : List Piece}
    (h : List.Forall₂ (Item char?) parts pieces) {part : Bytes} (hmem : part ∈ parts) :
    ∃ p, Item char? part p := by
  induction h with
  | nil => cases hmem
  | cons hitem _ ih =>
    rcases List.mem_cons.mp hmem with rfl | hmem
    · exact ⟨_, hitem⟩
    · exact ih hmem

lemma grammar (char? : ℕ → ℕ → Option Char) :
    Lexer.Grammar (lexer char?) (Item char?) 0x81 [0x70] :=
  ⟨Item.readsOff, item_of_lexer, lexer_eq_stop_iff⟩

/-- A lexer reads items up to the unit that ends a message, and nothing else. -/
structure ReadsItems (char? : ℕ → ℕ → Option Char) (lexer : Lexer) : Prop where
  /-- Items are read up to the end behind them, wherever they stand. -/
  read_items : ∀ {parts pieces}, List.Forall₂ (Item char?) parts pieces → ∀ before after,
    let text := before ++ (parts.flatten ++ 0x81 :: 0x70 :: after)
    lexer.read ⟨text, before.length⟩ =
      (.ok (Piece.join pieces ++ [.control .stop none]),
        ⟨text, before.length + (parts.flatten.length + 2)⟩)
  /-- The fragments of items are their pieces, with the characters joined as far as they go. -/
  joined : ∀ {parts pieces}, List.Forall₂ (Item char?) parts pieces →
    Fragment.Joined (Piece.join pieces) ∧ (Piece.join pieces).flatMap Fragment.pieces = pieces
  /-- Whatever is read are items and the end behind them. -/
  items_of_read : ∀ {c c' result}, lexer.read c = (.ok result, c') →
    ∃ parts pieces after, List.Forall₂ (Item char?) parts pieces ∧
      c.rest = parts.flatten ++ 0x81 :: 0x70 :: after ∧
      result = Piece.join pieces ++ [.control .stop none] ∧
      c' = c.advance (parts.flatten.length + 2)
  /-- The bytes of a message are whole units. -/
  even_of_read : ∀ {c c' result}, lexer.read c = (.ok result, c') →
    c.pos ≤ c'.pos ∧ 2 ∣ c'.pos - c.pos
  /-- The unit that ends a message does not stand at the front of an item, and where its bytes
  stand further inside they end nothing. -/
  passes : ∀ {c c' result}, lexer.read c = (.ok result, c') →
    ∀ {front part behind pieces after},
      List.Forall₂ (Item char?) (front ++ part :: behind) pieces →
      c.rest = (front ++ part :: behind).flatten ++ 0x81 :: 0x70 :: after →
      ¬ [0x81, 0x70] <+: part ∧
        ∀ k < part.length, c'.pos ≠ c.pos + (front.flatten.length + k) + 2

/-- Where the bytes from a cursor on are items and an end, they are read up to this end. -/
lemma read_eq_of_rest {c : Cursor} {parts : List Bytes} {pieces : List Piece} {after : Bytes}
    (hitems : List.Forall₂ (Item char?) parts pieces)
    (hrest : c.rest = parts.flatten ++ 0x81 :: 0x70 :: after) :
    (lexer char?).read c = (.ok (Piece.join pieces ++ [.control .stop none]),
      c.advance (parts.flatten.length + 2)) :=
  Lexer.read_eq_ok_iff.mpr
    ⟨pieces, _, (grammar char?).takes_iff.mpr ⟨parts, after, hitems, hrest, rfl⟩, rfl, rfl⟩

/-- Japanese text is read item by item, whatever characters the table of characters has; the
encoding reads it with the characters of the national standard. -/
theorem readsItems :
    (∀ char?, ReadsItems char? (lexer char?)) ∧
      Encoding.ootShiftJis.lexer = lexer DoubleByte.char? := by
  refine ⟨fun char? => ?_, rfl⟩
  have hread : ∀ {c c' result}, (lexer char?).read c = (.ok result, c') →
      ∃ parts pieces after, List.Forall₂ (Item char?) parts pieces ∧
        c.rest = parts.flatten ++ 0x81 :: 0x70 :: after ∧
        result = Piece.join pieces ++ [.control .stop none] ∧
        c' = c.advance (parts.flatten.length + 2) := by
    intro c c' result h
    obtain ⟨pieces, _, htakes, hresult, hc'⟩ := Lexer.read_eq_ok_iff.mp h
    obtain ⟨parts, after, hitems, hrest, rfl⟩ := (grammar char?).takes_iff.mp htakes
    exact ⟨parts, pieces, after, hitems, hrest, hresult, hc'⟩
  constructor
  case read_items =>
    intro parts pieces hitems before after
    exact read_eq_of_rest hitems List.drop_left
  case joined =>
    intro parts pieces hitems
    exact Piece.joined_join (single_of_items hitems)
  case items_of_read => exact hread
  case even_of_read =>
    intro c c' result h
    obtain ⟨parts, pieces, after, hitems, -, -, rfl⟩ := hread h
    have heven := two_dvd_length_flatten hitems
    simp only [Cursor.advance]
    omega
  case passes =>
    intro c c' result h front part behind pieces after hitems hrest
    obtain ⟨p, hitem⟩ := exists_item_of_mem hitems (by simp : part ∈ front ++ part :: behind)
    refine ⟨hitem.not_prefix, fun k hk => ?_⟩
    rw [read_eq_of_rest hitems hrest] at h
    cases h
    simp only [Cursor.advance, List.flatten_append, List.flatten_cons, List.length_append]
    omega

/-- The bytes of the end stand in the argument of a jump, and across the two units of the
argument of a background. -/
theorem readsItems_background :
    let text := [0xEA, 0xA1, 0xEA, 0xA3, 0x81, 0xCB, 0x81, 0x70, 0x86, 0xB3, 0x00, 0x81, 0x70, 0x00,
      0x00, 0x0B, 0x00, 0x41, 0x83, 0x9F, 0x81, 0x70, 0x81, 0x70]
    Encoding.ootShiftJis.lexer.read ⟨text, 0⟩ =
      (.ok [.text "遙凜", .control .goto (some 0x8170), .control .background (some 0x00817000),
        .color .red, .button .a, .control .stop none], ⟨text, 22⟩) := by
  have hfree : Free (unit 0xEA 0xA1) ∧ Free (unit 0xEA 0xA3) := by
    constructor <;> constructor <;> decide
  have hrow : (DoubleByte.row 83).toList[2]? = some '遙' ∧
      (DoubleByte.row 83).toList[4]? = some '凜' := by decide +kernel
  have hchars : DoubleByte.char? 0xEA 0xA1 = some '遙' ∧
      DoubleByte.char? 0xEA 0xA3 = some '凜' := by
    simp [DoubleByte.char?, DoubleByte.isLead, DoubleByte.isTrail, DoubleByte.place?,
      DoubleByte.privateRow, DoubleByte.rows_getElem?, hrow]
  have hgoto : Item DoubleByte.char? [0x81, 0xCB, 0x81, 0x70]
      (.fragment (.control .goto (Control.argumentOf [0x81, 0x70]))) :=
    .control (by decide)
  have hbackground : Item DoubleByte.char? [0x86, 0xB3, 0x00, 0x81, 0x70, 0x00]
      (.fragment (.control .background (Control.argumentOf [0x00, 0x81, 0x70, 0x00]))) :=
    .control (by decide)
  have hred : Item DoubleByte.char? [0x00, 0x0B, 0x00, 0x41] (.fragment (.color .red)) :=
    .color (n := 1) rfl
  have ha : Item DoubleByte.char? [0x83, 0x9F] (.fragment (.button .a)) := .button (n := 0) rfl
  have hitems := List.Forall₂.cons (Item.char rfl hfree.1 hchars.1)
    (.cons (.char rfl hfree.2 hchars.2)
      (.cons hgoto (.cons hbackground (.cons hred (.cons ha .nil)))))
  have hread := (readsItems.1 DoubleByte.char?).read_items hitems [] [0x81, 0x70]
  rw [readsItems.2]
  exact hread

end Japanese

end Message

end Cartridge
