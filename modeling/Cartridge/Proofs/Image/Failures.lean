import Cartridge.Proofs.Image.Session
import Cartridge.Proofs.Message.TableSources

/-!
# How calls fail

Where the message tables are is decided twice: once when they are fetched and once when they
are read. For every known release the two agree, so the error that there is no layout for a
source never comes up, whatever an image has been used for. The errors that do come up tell
of the configuration, of a file, of a table without an end or of a text.
-/
namespace Cartridge.Image

inductive ContentFailure : Cartridge.Error → Prop
  | missingFile (address : ℕ) : ContentFailure (.image (.missingFile address))
  | outOfRange (name : String) (start stop length : ℕ) :
    ContentFailure (.image (.outOfRange name start stop length))
  | yaz0 (cause : Yaz0.Error) : ContentFailure (.yaz0 cause)

inductive FileFailure : Cartridge.Error → Prop
  | noConfiguration : FileFailure (.image .noConfiguration)
  | noSuchName (name : String) : FileFailure (.image (.noSuchName name))
  | content {e : Cartridge.Error} (h : ContentFailure e) : FileFailure e

inductive IndexFailure : Cartridge.Error → Prop
  | missingKey {key : String}
    (h : key ∈ ["messageTable", "messageTable.files", "messageTable.offset"]) :
    IndexFailure (.config (.missingKey key))
  | badValue (value : String) : IndexFailure (.config (.badValue "messageTable" value))
  | file {e : Cartridge.Error} (h : FileFailure e) : IndexFailure e
  | openTable (offset : ℕ) : IndexFailure (.image (.bad (.openMessageTable offset)))

inductive MessageFailure (language : Language) : Cartridge.Error → Prop
  | missingKey : MessageFailure language (.config (.missingKey ("messageData." ++ language.code)))
  | file {e : Cartridge.Error} (h : FileFailure e) : MessageFailure language e
  | text (cause : Message.Error) : MessageFailure language (.text cause)

namespace Access

variable {α β : Type} {Q : α → Prop} {R : β → Prop} {P P' : Cartridge.Error → Prop}

/-- Whatever contents it finds, an access answers something with one property or fails with
an error with another. -/
def Ends (Q : α → Prop) (P : Cartridge.Error → Prop) (access : Access α) : Prop :=
  ∀ caches, Settles Q P (access.run caches).1

lemma Ends.bind {access : Access α} {next : α → Access β} (h : access.Ends Q P)
    (hnext : ∀ a, Q a → (next a).Ends R P) : (access >>= next).Ends R P := by
  intro caches
  have hfirst := h caches
  rw [run_bind]
  generalize access.run caches = outcome at hfirst ⊢
  obtain ⟨result, caches'⟩ := outcome
  cases hfirst with
  | ok ha => exact hnext _ ha caches'
  | error he => exact .error he

lemma ends_lift {result : Except Cartridge.Error α} (h : Settles Q P result) :
    (liftExcept result : Access α).Ends Q P := by
  intro caches
  rwa [run_liftExcept]

lemma ends_pure {a : α} (h : Q a) : (pure a : Access α).Ends Q P := fun _ => .ok h

lemma ends_get : (get : Access Caches).Ends (fun _ => True) P := fun _ => .ok trivial

lemma ends_modify (f : Caches → Caches) :
    (modify f : Access PUnit).Ends (fun _ => True) P := fun _ => .ok trivial

lemma Ends.mono_error {access : Access α} (h : access.Ends Q P) (herror : ∀ e, P e → P' e) :
    access.Ends Q P' :=
  fun caches => (h caches).mono_error herror

end Access

open Access (Ends ends_lift ends_pure ends_get ends_modify)

lemma settles_contentRead (bytes : Bytes) (record : FileRecord) :
    Settles (fun _ => True) ContentFailure (Content.read bytes record) := by
  dsimp only [Content.read]
  split
  · exact .error (.missingFile _)
  · split
    · exact .error (.outOfRange ..)
    · exact .ok trivial

lemma settles_decompress (content : Content) :
    Settles (fun _ => True) ContentFailure content.decompress := by
  unfold Content.decompress
  split
  · exact .ok trivial
  · split
    · exact .ok trivial
    · exact .error (.yaz0 _)

variable (image : Image)

lemma ends_storedOf (record : FileRecord) :
    (image.storedOf record).Ends (fun _ => True) ContentFailure := by
  refine ends_get.bind fun caches _ => ?_
  split
  · exact ends_pure trivial
  · refine (ends_lift (settles_contentRead image.bytes record)).bind fun content _ => ?_
    exact (ends_modify _).bind fun _ _ => ends_pure trivial

lemma ends_plainOf (record : FileRecord) :
    (image.plainOf record).Ends (fun _ => True) ContentFailure := by
  refine ends_get.bind fun caches _ => ?_
  split
  · exact ends_pure trivial
  · refine (image.ends_storedOf record).bind fun stored _ => ?_
    refine (ends_lift (settles_decompress stored)).bind fun content _ => ?_
    exact (ends_modify _).bind fun _ _ => ends_pure trivial

lemma settles_indexOfName (name : String) :
    Settles (· < image.files.length) FileFailure (image.indexOfName name) := by
  unfold indexOfName
  split
  · exact .error .noConfiguration
  · next hindex => exact .ok (List.findIdx?_eq_some_iff_findIdx_eq.mp hindex).1
  · exact .error (.noSuchName name)

lemma record_of_lt {index : ℕ} (h : index < image.files.length) :
    image.record index = .ok image.files[index] := by
  rw [Image.record, List.getElem?_eq_getElem h]

lemma ends_decompressedNamed (name : String) :
    (image.decompressedNamed name).Ends (fun _ => True) FileFailure := by
  refine (ends_lift (image.settles_indexOfName name)).bind fun index hindex => ?_
  rw [decompressed, image.record_of_lt hindex]
  exact (image.ends_plainOf _).mono_error fun _ => .content

/-- The parts have the languages of the files, in their order. -/
lemma ends_decompressAll (files : List (Language × String)) :
    (image.decompressAll files).Ends (fun parts => parts.map Prod.fst = files.map Prod.fst)
      FileFailure := by
  induction files with
  | nil => exact ends_pure rfl
  | cons file files ih =>
    refine (image.ends_decompressedNamed file.2).bind fun content _ => ?_
    refine ih.bind fun parts hparts => ends_pure ?_
    rw [List.map_cons, List.map_cons, hparts]

lemma settles_requireKey {α : Type} {P : Cartridge.Error → Prop} {key : String}
    (value : Option α) (h : P (.config (.missingKey key))) :
    Settles (fun _ => True) P (requireKey key value) := by
  cases value with
  | none => exact .error h
  | some value => exact .ok trivial

lemma settles_tablePlace (config : Config.Tree) :
    Settles (fun _ => True) IndexFailure
      (config.tablePlace.mapError Cartridge.Error.config) := by
  unfold Config.Tree.tablePlace
  split
  · exact .error (.missingKey (by simp))
  · split
    · exact .ok trivial
    · exact .error (.badValue _)

/-- The source that is fetched goes with the release. -/
lemma ends_tableSource (game : Game) (region : Region) (place : Config.TablePlace) :
    (image.tableSource game region place).Ends (·.Fits game region) IndexFailure := by
  unfold tableSource
  split
  · next hfiles =>
    have hkey : Settles (fun _ => True) IndexFailure
        (requireKey "messageTable.files" place.files) :=
      settles_requireKey _ (.missingKey (by simp))
    refine (ends_lift hkey).bind fun files _ => ?_
    have hparts := (image.ends_decompressAll (languageFiles files)).mono_error
      fun _ => IndexFailure.file
    exact hparts.bind fun parts hlanguages => ends_pure ⟨hfiles.1, hfiles.2, hlanguages⟩
  · next hcode =>
    have hkey : Settles (fun _ => True) IndexFailure
        (requireKey "messageTable.offset" place.offset) :=
      settles_requireKey _ (.missingKey (by simp))
    refine (ends_lift hkey).bind fun offset _ => ?_
    have hcontent := (image.ends_decompressedNamed "code").mono_error fun _ => IndexFailure.file
    exact hcontent.bind fun content _ => ends_pure hcode

lemma settles_gameRegion :
    Settles (fun part => image.release.game? = some part.1 ∧ image.release.region? = some part.2)
      FileFailure image.gameRegion := by
  unfold gameRegion
  split
  · next hgame hregion => exact .ok ⟨hgame, hregion⟩
  · exact .error .noConfiguration

lemma settles_requireConfig : Settles (fun _ => True) FileFailure image.requireConfig := by
  unfold requireConfig
  split
  · exact .ok trivial
  · exact .error .noConfiguration

lemma exists_tableLanguages {release : Release} {game : Game} {region : Region}
    (hgame : release.game? = some game) (hregion : release.region? = some region) :
    ∃ languages, Message.tableLanguages? game region = some languages := by
  cases release <;> cases hgame <;> cases hregion <;> exact ⟨_, rfl⟩

/-- The index has the tables of the languages that the release of the image has, in their
order, with no entry that has the last id and with all addresses below 2 ^ 24. -/
def Indexes (index : Message.Index) : Prop :=
  ∃ game region languages, image.release.game? = some game ∧
    image.release.region? = some region ∧
    Message.tableLanguages? game region = some languages ∧ index.Lists languages

lemma ends_messageIndex : image.messageIndex.Ends image.Indexes IndexFailure := by
  have hrelease := image.settles_gameRegion.mono_error fun _ => IndexFailure.file
  refine (ends_lift hrelease).bind ?_
  rintro ⟨game, region⟩ ⟨hgame, hregion⟩
  have hconfig := image.settles_requireConfig.mono_error fun _ => IndexFailure.file
  refine (ends_lift hconfig).bind fun config _ => ?_
  refine (ends_lift (settles_tablePlace config)).bind fun place _ => ?_
  refine (image.ends_tableSource game region place).bind fun source hfits => ends_lift ?_
  obtain ⟨languages, hlanguages⟩ := exists_tableLanguages hgame hregion
  refine (Message.Index.settles_ofSource hlanguages hfits).mono ?_ ?_
  · exact fun index hlists => ⟨game, region, languages, hgame, hregion, hlanguages, hlists⟩
  · rintro e ⟨offset, rfl⟩
    exact .openTable offset

lemma settles_encodingOf (language : Language) :
    Settles (fun _ => True) (MessageFailure language) (image.encodingOf language) := by
  have hrelease := image.settles_gameRegion.mono_error fun _ => @MessageFailure.file language _
  refine hrelease.bind ?_
  rintro ⟨game, region⟩ -
  dsimp only
  split
  · exact .ok trivial
  · exact .error (.text _)

lemma settles_textFile (language : Language) :
    Settles (fun _ => True) (MessageFailure language) (image.textFile language) := by
  have hconfig := image.settles_requireConfig.mono_error fun _ => @MessageFailure.file language _
  exact hconfig.bind fun config _ => settles_requireKey _ .missingKey

lemma ends_message (index : Message.Index) (language : Language) (id : ℕ) :
    (image.message index language id).Ends (fun _ => True) (MessageFailure language) := by
  unfold message
  split
  · exact fun _ => .error (.text _)
  · next entry _ =>
    refine (ends_lift (image.settles_encodingOf language)).bind fun encoding _ => ?_
    refine (ends_lift (image.settles_textFile language)).bind fun name _ => ?_
    have hcontent := (image.ends_decompressedNamed name).mono_error
      fun _ => @MessageFailure.file language _
    refine hcontent.bind fun content _ => ends_lift ?_
    cases readBounded encoding content.bytes entry.address (index.nextAddress? language id) with
    | error cause => exact .error (.text cause)
    | ok m => exact .ok trivial

def NoLayout (e : Cartridge.Error) : Prop := ∃ game region, e = .noLayout game region

section NoLayout

variable {e : Cartridge.Error}

lemma ContentFailure.not_noLayout (h : ContentFailure e) : ¬ NoLayout e := by
  rintro ⟨game, region, rfl⟩
  cases h

lemma FileFailure.not_noLayout (h : FileFailure e) : ¬ NoLayout e := by
  cases h with
  | content h => exact h.not_noLayout
  | noConfiguration | noSuchName => simp [NoLayout]

lemma IndexFailure.not_noLayout (h : IndexFailure e) : ¬ NoLayout e := by
  cases h with
  | file h => exact h.not_noLayout
  | missingKey | badValue | openTable => simp [NoLayout]

lemma MessageFailure.not_noLayout {language : Language} (h : MessageFailure language e) :
    ¬ NoLayout e := by
  cases h with
  | file h => exact h.not_noLayout
  | missingKey | text => simp [NoLayout]

end NoLayout

lemma settles_record (choice : Choice) :
    Settles (fun _ => True) (¬ NoLayout ·) (choice.record image) := by
  have hposition : Settles (fun _ => True) (¬ NoLayout ·) (choice.position image) := by
    cases choice with
    | index i => exact .ok trivial
    | address vstart =>
      change Settles _ _ (image.indexOfAddress vstart)
      unfold indexOfAddress
      split
      · exact .ok trivial
      · exact .error (by simp [NoLayout])
    | name label =>
      exact (image.settles_indexOfName label).mono (fun _ _ => trivial)
        fun _ => FileFailure.not_noLayout
  refine hposition.bind fun i _ => ?_
  unfold Image.record
  split
  · exact .ok trivial
  · exact .error (by simp [NoLayout])

lemma ends_chosen {read : FileRecord → Access Content}
    (h : ∀ record, (read record).Ends (fun _ => True) ContentFailure) (choice : Choice) :
    (liftExcept (choice.record image) >>= read : Access Content).Ends (fun _ => True)
      (¬ NoLayout ·) := by
  refine (ends_lift (image.settles_record choice)).bind fun record _ => ?_
  exact (h record).mono_error fun _ => ContentFailure.not_noLayout

/-- No call comes upon a layout that is not known. -/
lemma ends_call (c : Call) : (c.access image).Ends (fun _ => True) (¬ NoLayout ·) := by
  cases c with
  | file choice =>
    have hfile := image.ends_chosen image.ends_storedOf choice
    rw [← choice.file_eq] at hfile
    exact hfile.bind fun _ _ => ends_pure trivial
  | decompressed choice =>
    have hplain := image.ends_chosen image.ends_plainOf choice
    rw [← choice.decompressed_eq] at hplain
    exact hplain.bind fun _ _ => ends_pure trivial
  | messageIndex =>
    have hindex := image.ends_messageIndex.mono_error fun _ => IndexFailure.not_noLayout
    exact hindex.bind fun _ _ => ends_pure trivial
  | message index language id =>
    have hmessage := (image.ends_message index language id).mono_error
      fun _ => MessageFailure.not_noLayout
    exact hmessage.bind fun _ _ => ends_pure trivial

namespace Session

/-- However long an image is used, no answer is that a layout is not known. -/
theorem answers_ne_noLayout (s : Session) (calls : List Call) :
    ∀ answer ∈ s.answers calls, Settles (fun _ => True) (¬ NoLayout ·) answer := by
  induction calls generalizing s with
  | nil => exact fun answer hanswer => absurd hanswer List.not_mem_nil
  | cons c calls ih =>
    exact List.forall_mem_cons.mpr ⟨s.image.ends_call c s.caches, ih (s.call c).2⟩

/-- Where an image in use finds its message tables: its release is known, its configuration has
a place for the tables, and what is there can be had. -/
structure FindsTables (s : Session) (game : Game) (region : Region)
    (source : Message.TableSource) : Prop where
  release : s.image.gameRegion = .ok (game, region)
  source : ∃ config place, s.image.requireConfig = .ok config ∧ config.tablePlace = .ok place ∧
    (s.run (·.tableSource game region place)).1 = .ok source

variable {s : Session} {game : Game} {region : Region} {source : Message.TableSource}
  {index : Message.Index}

/-- Where the tables are found, the index is what they make. -/
lemma FindsTables.messageIndex_eq (h : s.FindsTables game region source) :
    (s.run (·.messageIndex)).1 = Message.Index.ofSource (some game) (some region) source := by
  obtain ⟨hrelease, config, place, hconfig, hplace, hsource⟩ := h
  change (s.image.messageIndex.run s.caches).1 = _
  change ((s.image.tableSource game region place).run s.caches).1 = _ at hsource
  simp only [messageIndex, Access.run_bind, Access.run_liftExcept, hrelease, hconfig, hplace,
    Except.mapError]
  generalize (s.image.tableSource game region place).run s.caches = outcome at hsource ⊢
  obtain ⟨result, caches⟩ := outcome
  cases hsource
  rfl

lemma exists_findsTables (h : (s.run (·.messageIndex)).1 = .ok index) :
    ∃ game region source, s.FindsTables game region source := by
  obtain ⟨⟨game, region⟩, _, hrun, h⟩ := Access.exists_of_run_bind h
  obtain ⟨hrelease, rfl⟩ := Access.run_liftExcept_eq_ok.mp hrun
  obtain ⟨config, _, hrun, h⟩ := Access.exists_of_run_bind h
  obtain ⟨hconfig, rfl⟩ := Access.run_liftExcept_eq_ok.mp hrun
  obtain ⟨place, _, hrun, h⟩ := Access.exists_of_run_bind h
  obtain ⟨hplace, rfl⟩ := Access.run_liftExcept_eq_ok.mp hrun
  obtain ⟨source, _, hsource, -⟩ := Access.exists_of_run_bind h
  exact ⟨game, region, source, hrelease, config, place, hconfig, mapError_eq_ok.mp hplace,
    congrArg Prod.fst hsource⟩

/-- How an image in use answers when it is asked for its message index or for a message. -/
structure Settled (s : Session) : Prop where
  index : Settles s.image.Indexes IndexFailure (s.run (·.messageIndex)).1
  /-- There is an index exactly where the tables are found and make one. -/
  index_ok_iff : ∀ index, (s.run (·.messageIndex)).1 = .ok index ↔
    ∃ game region source, s.FindsTables game region source ∧
      Message.Index.ofSource (some game) (some region) source = .ok index
  message : ∀ index language id,
    Settles (fun _ => True) (MessageFailure language) (s.run (·.message index language id)).1
  index_ne : ∀ game region, (s.run (·.messageIndex)).1 ≠ .error (.noLayout game region)
  message_ne : ∀ index language id game region,
    (s.run (·.message index language id)).1 ≠ .error (.noLayout game region)

/-- However an image has been used, its message index has the languages of its release and
ids and addresses as they may be, or cannot be had for the configuration, a file or a table
without an end; that a layout is not known is never the reason, for messages neither. -/
theorem message_calls_settled (s : Session) : s.Settled where
  index := s.image.ends_messageIndex s.caches
  index_ok_iff index := by
    constructor
    · intro h
      obtain ⟨game, region, source, hfinds⟩ := exists_findsTables h
      exact ⟨game, region, source, hfinds, hfinds.messageIndex_eq.symm.trans h⟩
    · rintro ⟨game, region, source, hfinds, hok⟩
      rw [hfinds.messageIndex_eq, hok]
  message index language id := s.image.ends_message index language id s.caches
  index_ne game region := by
    have hindex := s.image.ends_messageIndex s.caches
    exact hindex.ne_error fun h => h.not_noLayout ⟨game, region, rfl⟩
  message_ne index language id game region := by
    have hmessage := s.image.ends_message index language id s.caches
    exact hmessage.ne_error fun h => h.not_noLayout ⟨game, region, rfl⟩

/-- The release for the United States has one table, in English. -/
example :
    let code : FileRecord := { vstart := 0, vend := 16, pstart := 0, pend := 0, name := "code" }
    let image : Image := {
      bytes := [0, 1, 0, 0, 7, 0, 0, 4, 0xFF, 0xFF, 0, 0, 0, 0, 0, 0]
      swapped := false
      magicOffset := 0
      release := .mmUs
      header := none
      files := [code]
      config := some ⟨[("messageTable", .table [("offset", .integer 0)])]⟩ }
    ((⟨image, .empty⟩ : Session).run (·.messageIndex)).1.map Catalog.entries =
      .ok [(.english, .ofList [(1, ⟨.black, .varying, 4⟩)])] := rfl

end Session

end Cartridge.Image
