import Cartridge.Proofs.Config.Lookup
import Cartridge.Proofs.Image.Naming

/-!
# Finding files by name

A configuration assigns a name to a file under the eight digits of its virtual start: the text in
the file list, or where there is none the one among the made-up names. A file without a name bears
the empty text. The search for a name finds the first file that bears it.
-/
namespace Cartridge.Image

variable {tree : Config.Tree} {address : ℕ} {key name : String}

/-- The file list has the text under a key. -/
def ListsName (tree : Config.Tree) (key name : String) : Prop :=
  ∃ list, tree.root.get? "fileList" = some (.table list) ∧
    Config.Table.get? list key = some (.string name)

/-- The made-up names, which are a part of the file list, have the text under a key. -/
def ListsFakeName (tree : Config.Tree) (key name : String) : Prop :=
  ∃ list fakes, tree.root.get? "fileList" = some (.table list) ∧
    Config.Table.get? list "fakeNames" = some (.table fakes) ∧
    Config.Table.get? fakes key = some (.string name)

/-- The configuration assigns a name to the file with a virtual start. -/
def Assigns (tree : Config.Tree) (address : ℕ) (name : String) : Prop :=
  let key := Numeral.upperHex 8 address
  ListsName tree key name ∨ (∀ other, ¬ ListsName tree key other) ∧ ListsFakeName tree key name

/-- The file with a virtual start bears a name: the one assigned to it, or the empty text. -/
def Bears (tree : Config.Tree) (address : ℕ) (name : String) : Prop :=
  Assigns tree address name ∨ name = "" ∧ ∀ other, ¬ Assigns tree address other

lemma listsName_iff : ListsName tree key name ↔ tree.string? ["fileList", key] = some name := by
  rw [Config.Tree.string?_eq_some_iff, Config.Tree.get?,
    Config.Tree.find?_cons_eq_some_iff (List.cons_ne_nil _ _)]
  rfl

lemma listsFakeName_iff :
    ListsFakeName tree key name ↔ tree.string? ["fileList", "fakeNames", key] = some name := by
  rw [Config.Tree.string?_eq_some_iff, Config.Tree.get?]
  simp only [Config.Tree.find?_cons_eq_some_iff (List.cons_ne_nil _ _)]
  constructor
  · rintro ⟨list, fakes, hlist, hfakes, hname⟩
    exact ⟨list, hlist, fakes, hfakes, hname⟩
  · rintro ⟨list, hlist, fakes, hfakes, hname⟩
    exact ⟨list, fakes, hlist, hfakes, hname⟩

/-- The two questions in turn give the name that is assigned. -/
lemma assigns_iff : Assigns tree address name ↔ nameOf? tree address = some name := by
  simp only [Assigns, listsName_iff, listsFakeName_iff, nameOf?]
  cases tree.string? ["fileList", Numeral.upperHex 8 address] with
  | none => simp
  | some found => simp

lemma bears_iff : Bears tree address name ↔ fileName (some tree) address = name := by
  simp only [Bears, assigns_iff, fileName, Option.bind_some]
  cases nameOf? tree address with
  | none => simp [eq_comm]
  | some found => simp

variable {dump : Bytes} {configOf : Release → Option Config.Tree} {image : Image}

/-- Every file of a configured image has the name that the configuration has for it. -/
lemma name_of_load (h : load dump configOf = .ok image) (hconfig : image.config = some tree)
    {r : FileRecord} (hr : r ∈ image.files) : r.name = fileName (some tree) r.vstart := by
  rw [load_eq_withConfig] at h
  obtain ⟨base, hbase, rfl⟩ := map_eq_ok.mp h
  cases hconfigOf : configOf base.release with
  | none =>
    rw [hconfigOf, withConfig, (readFrom_of_ofBytes hbase).config_eq] at hconfig
    cases hconfig
  | some found =>
    rw [hconfigOf] at hconfig hr
    cases hconfig
    obtain ⟨file, -, rfl⟩ := List.mem_map.mp hr
    rfl

/-- What the search among the records comes to, in terms of the configuration. -/
lemma findIdx?_name_eq_some_iff (h : load dump configOf = .ok image)
    (hconfig : image.config = some tree) {i : ℕ} :
    image.files.findIdx? (·.name == name) = some i ↔
      (∃ r, image.files[i]? = some r ∧ Bears tree r.vstart name) ∧
        ∀ j < i, ∀ r, image.files[j]? = some r → ¬ Bears tree r.vstart name := by
  have hbears : ∀ r ∈ image.files, (r.name == name) = true ↔ Bears tree r.vstart name := by
    intro r hr
    rw [bears_iff, ← name_of_load h hconfig hr, beq_iff_eq]
  rw [List.findIdx?_eq_some_iff_getElem]
  constructor
  · rintro ⟨hi, hname, hfirst⟩
    refine ⟨⟨_, List.getElem?_eq_getElem hi, (hbears _ (List.getElem_mem hi)).mp hname⟩, ?_⟩
    intro j hj r hr
    obtain ⟨hlt, rfl⟩ := List.getElem?_eq_some_iff.mp hr
    rw [← hbears _ (List.getElem_mem hlt)]
    exact hfirst j hj
  · rintro ⟨⟨r, hr, hname⟩, hfirst⟩
    obtain ⟨hi, rfl⟩ := List.getElem?_eq_some_iff.mp hr
    refine ⟨hi, (hbears _ (List.getElem_mem hi)).mpr hname, fun j hj => ?_⟩
    have hlt : j < image.files.length := Nat.lt_trans hj hi
    rw [hbears _ (List.getElem_mem hlt)]
    exact hfirst j hj _ (List.getElem?_eq_getElem hlt)

/-- A file is found by name exactly when it is the first one that bears the name, and one is found
when any file bears it. For every name but the empty text these are the files that the configuration
assigns the name to. -/
theorem indexOfName_of_load (h : load dump configOf = .ok image) (name : String) :
    (image.config = none → image.indexOfName name = .error (.image .noConfiguration)) ∧
    ∀ tree, image.config = some tree →
      (∀ i, image.indexOfName name = .ok i ↔
        (∃ r, image.files[i]? = some r ∧ Bears tree r.vstart name) ∧
          ∀ j < i, ∀ r, image.files[j]? = some r → ¬ Bears tree r.vstart name) ∧
      ((∃ r ∈ image.files, Bears tree r.vstart name) → ∃ i, image.indexOfName name = .ok i) ∧
      (name ≠ "" → ∀ address, Bears tree address name ↔ Assigns tree address name) := by
  refine ⟨fun hnone => by rw [indexOfName, hnone], fun tree hconfig => ?_⟩
  have hfound : ∀ i, image.indexOfName name = .ok i ↔
      image.files.findIdx? (·.name == name) = some i := by
    intro i
    rw [indexOfName, hconfig]
    cases image.files.findIdx? (·.name == name) <;> simp
  refine ⟨fun i => (hfound i).trans (findIdx?_name_eq_some_iff h hconfig), ?_, ?_⟩
  · rintro ⟨r, hr, hname⟩
    cases hsearch : image.files.findIdx? (·.name == name) with
    | some i => exact ⟨i, (hfound i).mpr hsearch⟩
    | none =>
      have hne := List.findIdx?_eq_none_iff.mp hsearch r hr
      rw [bears_iff, ← name_of_load h hconfig hr] at hname
      simp [hname] at hne
  · intro hname address
    simp [Bears, hname]

/-- A configuration that gives the sample's table a name. -/
def sampleConfig : Config.Tree :=
  ⟨[("fileList", .table [("00000030", .string "dmadata")])]⟩

lemma load_sample_configured (tree : Config.Tree) :
    load (sampleDump 0x60) (fun _ => some tree) = .ok ((sample 0x60).configure tree) := by
  have hload := Session.image_of_load (load_sample (.inl rfl))
  rw [load_eq_withConfig] at hload ⊢
  obtain ⟨image, himage, hsample⟩ := map_eq_ok.mp hload
  rw [himage, show image = sample 0x60 from hsample]
  rfl

/-- The table of the sample is found by the name that a configuration gives it. -/
theorem indexOfName_of_load_sample :
    let image := (sample 0x60).configure sampleConfig
    load (sampleDump 0x60) (fun _ => some sampleConfig) = .ok image ∧
      image.indexOfName "dmadata" = .ok 0 := by
  have hload := load_sample_configured sampleConfig
  have hkey : Numeral.upperHex 8 0x30 = "00000030" := by decide +kernel
  have hlists : ListsName sampleConfig (Numeral.upperHex 8 0x30) "dmadata" := by
    rw [hkey]
    exact ⟨_, rfl, rfl⟩
  obtain ⟨-, hfound⟩ := indexOfName_of_load hload "dmadata"
  obtain ⟨hindex, -⟩ := hfound sampleConfig rfl
  refine ⟨hload, (hindex 0).mpr ⟨⟨_, rfl, .inl (.inl hlists)⟩, ?_⟩⟩
  intro j hj
  cases hj

/-- The empty text finds a file that an empty configuration assigns no name to. -/
theorem indexOfName_unassigned :
    ∃ image, load (sampleDump 0x60) (fun _ => some ⟨[]⟩) = .ok image ∧
      image.config = some ⟨[]⟩ ∧ image.indexOfName "" = .ok 0 ∧
      ∀ r ∈ image.files, ¬ Assigns ⟨[]⟩ r.vstart "" := by
  refine ⟨_, load_sample_configured _, rfl, rfl, fun r _ h => ?_⟩
  rw [assigns_iff] at h
  cases h

end Cartridge.Image
