import Cartridge.Proofs.Image.Session
import Cartridge.Proofs.Message.Locality

/-!
# Messages and their bounds

A message ends before the next one of its table, where this is behind it in the file, and
else in the file. To bound the bytes there never makes another message of a message: either
they are read as they are without a bound, or the reading lacks bytes.
-/
namespace Cartridge

namespace Message

/-- Bytes up to a bound are read as all the bytes, or the reading lacks bytes. -/
lemma read_take_eq_or (encoding : Encoding) (bytes : Bytes) (offset bound : ℕ) :
    read encoding (bytes.take bound) offset = read encoding bytes offset ∨
      ∃ stop, read encoding (bytes.take bound) offset = .error (.unexpectedEnd stop) := by
  obtain ⟨size, ending, hreads⟩ := exists_reads encoding ((bytes.take bound).drop offset)
  by_cases hsettled : ending.Settled
  · left
    have hbytes : ((bytes.take bound).drop offset).take size <+: bytes.drop offset :=
      (List.take_prefix _ _).trans ((List.take_prefix _ _).drop offset)
    rw [read_of_reads hreads, read_of_reads (hreads.of_take hsettled hbytes)]
  · right
    cases ending with
    | done | bad => exact absurd trivial hsettled
    | short => exact ⟨_, read_of_reads hreads⟩

lemma lt_pos_of_readAt {encoding : Encoding} {bytes : Bytes} {offset : ℕ} {m : Message}
    {c : Cursor} (h : readAt encoding ⟨bytes, offset⟩ = (.ok m, c)) : offset < c.pos := by
  obtain ⟨size, hreads, hpos⟩ := exists_reads_of_readAt h
  have := hreads.size_pos trivial
  omega

end Message

namespace Image

open Message (Cursor readAt)

variable {encoding : Message.Encoding} {bytes : Bytes} {start : ℕ} {next : Option ℕ}
  {m : Message}

lemma messageBound_eq {length stop : ℕ} (hstart : start < stop) (hlength : stop ≤ length) :
    messageBound start length (some stop) = stop :=
  if_pos ⟨hstart, hlength⟩

lemma readBounded_of_le {c : Cursor} (h : readAt encoding ⟨bytes, start⟩ = (.ok m, c))
    (hle : c.pos ≤ messageBound start bytes.length next) :
    readBounded encoding bytes start next = .ok m := by
  have hlt := Message.lt_pos_of_readAt h
  have hstop : ¬ messageBound start bytes.length next ≤ start := by omega
  rw [readBounded, if_neg hstop]
  exact (Message.read_take h _).1 hle

/-- A message that ends behind its bounds lacks bytes there. -/
lemma readBounded_of_lt {c : Cursor} (h : readAt encoding ⟨bytes, start⟩ = (.ok m, c))
    (hlt : messageBound start bytes.length next < c.pos) :
    ∃ stop, readBounded encoding bytes start next = .error (.unexpectedEnd stop) := by
  rw [readBounded]
  split
  · exact ⟨start, rfl⟩
  · exact (Message.read_take h _).2 hlt

/-- A bounded reading answers what the reading without a bound does, or lacks bytes. -/
lemma readBounded_eq_or (encoding : Message.Encoding) (bytes : Bytes) (start : ℕ)
    (next : Option ℕ) :
    readBounded encoding bytes start next = Message.read encoding bytes start ∨
      ∃ stop, readBounded encoding bytes start next = .error (.unexpectedEnd stop) := by
  rw [readBounded]
  split
  · exact .inr ⟨start, rfl⟩
  · exact Message.read_take_eq_or encoding bytes start _

/-- What is read in bounds is what is read without them, and ends in the bounds: otherwise its last
byte would be cut off. -/
lemma readAt_of_readBounded (h : readBounded encoding bytes start next = .ok m) :
    ∃ c, readAt encoding ⟨bytes, start⟩ = (.ok m, c) ∧
      c.pos ≤ messageBound start bytes.length next := by
  have hread : Message.read encoding bytes start = .ok m := by
    rcases readBounded_eq_or encoding bytes start next with heq | ⟨stop, herror⟩
    · rw [← heq, h]
    · rw [h] at herror
      cases herror
  have hreadAt : readAt encoding ⟨bytes, start⟩ = (.ok m, (readAt encoding ⟨bytes, start⟩).2) :=
    Prod.ext hread rfl
  refine ⟨_, hreadAt, ?_⟩
  by_contra hle
  obtain ⟨stop, herror⟩ := readBounded_of_lt hreadAt (Nat.lt_of_not_le hle)
  rw [h] at herror
  cases herror

/-- A reading that does not give a message that ends in the bounds fails, with the error of
the reading without them or for want of bytes. -/
lemma readBounded_error
    (h : ∀ m c, readAt encoding ⟨bytes, start⟩ = (.ok m, c) →
      messageBound start bytes.length next < c.pos) :
    ∃ e, readBounded encoding bytes start next = .error e ∧
      (Message.read encoding bytes start = .error e ∨ ∃ stop, e = .unexpectedEnd stop) := by
  cases hbounded : readBounded encoding bytes start next with
  | ok m =>
    obtain ⟨c, hread, hle⟩ := readAt_of_readBounded hbounded
    have := h m c hread
    omega
  | error e =>
    refine ⟨e, rfl, ?_⟩
    rcases readBounded_eq_or encoding bytes start next with heq | ⟨stop, herror⟩
    · left
      rw [← heq, hbounded]
    · right
      rw [hbounded] at herror
      cases herror
      exact ⟨stop, rfl⟩

/-- A message that ends in the next one is not read up to there. -/
example : readBounded .ootAscii [0x41, 0x05, 0x42, 0x02] 0 (some 2) =
    .error (.unexpectedEnd 2) := by cbv

/-- Where an image in use finds a message of an index: the encoding of the language, the
decompressed bytes of the file that the configuration names for it, and the address. -/
structure Session.Finds (s : Session) (index : Message.Index) (language : Language) (id : ℕ)
    (encoding : Message.Encoding) (bytes : Bytes) (address : ℕ) : Prop where
  entry : ∃ entry, index.entry? language id = some entry ∧ entry.address = address
  encoding : s.image.encodingOf language = .ok encoding
  bytes : ∃ name content, s.image.textFile language = .ok name ∧
    (s.run (·.decompressedNamed name)).1 = .ok content ∧ content.bytes = bytes

namespace Session

variable {s : Session} {index : Message.Index} {language : Language} {id address : ℕ}

/-- Where the message is found, it is read in its bounds. -/
lemma Finds.message_eq (h : s.Finds index language id encoding bytes address) :
    (s.run (·.message index language id)).1 =
      (readBounded encoding bytes address (index.nextAddress? language id)).mapError
        Cartridge.Error.text := by
  obtain ⟨⟨entry, hentry, rfl⟩, hencoding, name, content, hname, hcontent, rfl⟩ := h
  change ((s.image.message index language id).run s.caches).1 = _
  change ((s.image.decompressedNamed name).run s.caches).1 = _ at hcontent
  simp only [message, hentry, Access.run_bind, Access.run_liftExcept, hencoding, hname]
  generalize (s.image.decompressedNamed name).run s.caches = outcome at hcontent ⊢
  obtain ⟨result, caches⟩ := outcome
  cases hcontent
  rfl

lemma exists_finds (h : (s.run (·.message index language id)).1 = .ok m) :
    ∃ encoding bytes address, s.Finds index language id encoding bytes address := by
  change ((s.image.message index language id).run s.caches).1 = _ at h
  unfold message at h
  split at h
  · cases h
  · next entry hentry =>
    obtain ⟨encoding, _, hrun, h⟩ := Access.exists_of_run_bind h
    obtain ⟨hencoding, rfl⟩ := Access.run_liftExcept_eq_ok.mp hrun
    obtain ⟨name, _, hrun, h⟩ := Access.exists_of_run_bind h
    obtain ⟨hname, rfl⟩ := Access.run_liftExcept_eq_ok.mp hrun
    obtain ⟨content, _, hcontent, -⟩ := Access.exists_of_run_bind h
    exact ⟨encoding, content.bytes, entry.address, ⟨entry, hentry, rfl⟩, hencoding,
      name, content, hname, congrArg Prod.fst hcontent, rfl⟩

/-- What an image in use answers when it is asked for a message: a message that it gives is
the one at the address and ends in its bounds; a message at the address that ends in its bounds
it gives; and when there is no such message it fails, as the reading of the message without a
bound fails or for want of bytes. -/
structure Bounded (s : Session) (index : Message.Index) (language : Language) (id : ℕ) :
    Prop where
  of_ok : ∀ m, (s.run (·.message index language id)).1 = .ok m →
    ∃ encoding bytes address c, s.Finds index language id encoding bytes address ∧
      readAt encoding ⟨bytes, address⟩ = (.ok m, c) ∧
      ∀ stop, index.nextAddress? language id = some stop → address < stop →
        stop ≤ bytes.length → c.pos ≤ stop
  ok : ∀ encoding bytes address, s.Finds index language id encoding bytes address →
    ∀ m c, readAt encoding ⟨bytes, address⟩ = (.ok m, c) →
      c.pos ≤ messageBound address bytes.length (index.nextAddress? language id) →
        (s.run (·.message index language id)).1 = .ok m
  error : ∀ encoding bytes address, s.Finds index language id encoding bytes address →
    (∀ m c, readAt encoding ⟨bytes, address⟩ = (.ok m, c) →
      messageBound address bytes.length (index.nextAddress? language id) < c.pos) →
        ∃ e, (s.run (·.message index language id)).1 = .error (.text e) ∧
          (Message.read encoding bytes address = .error e ∨ ∃ stop, e = .unexpectedEnd stop)

/-- However an image has been used, no message runs into the next one, and none is changed
by its bounds. -/
theorem message_bounded (s : Session) (index : Message.Index) (language : Language) (id : ℕ) :
    s.Bounded index language id where
  of_ok m hm := by
    obtain ⟨encoding, bytes, address, hfinds⟩ := exists_finds hm
    rw [hfinds.message_eq] at hm
    obtain ⟨c, hread, hle⟩ := readAt_of_readBounded (mapError_eq_ok.mp hm)
    refine ⟨encoding, bytes, address, c, hfinds, hread, fun stop hnext hstart hlength => ?_⟩
    rwa [hnext, messageBound_eq hstart hlength] at hle
  ok encoding bytes address hfinds m c hread hle := by
    rw [hfinds.message_eq, readBounded_of_le hread hle]
    rfl
  error encoding bytes address hfinds hcut := by
    obtain ⟨e, herror, hcause⟩ := readBounded_error hcut
    rw [hfinds.message_eq, herror]
    exact ⟨e, rfl, hcause⟩

end Session

end Image

end Cartridge
