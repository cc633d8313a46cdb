import CanonTree.Config.Document
import CanonTree.Proofs.Toml.DistinctNames
import Mathlib.Algebra.GroupWithZero.Nat

/-!
# Settings in a document

The `normalizer` table of a document is read strictly: each of its names is a setting and each
of its values suits it, or there are no settings at all.  A setting that is given is what the
table says, and one that is not keeps its default.  The rest of the document counts for
nothing unless the reader fails to pass over it, and then there are no settings either.

The statements are about any reader of documents that gives no name twice.
-/

namespace CanonTree

namespace Config

variable {config changed result : Config} {name : String} {value : Toml.Value}
  {table : List (String × Toml.Value)}

/-! ## One setting -/

/-- There is a setting with the name, and the value is of its kind. -/
inductive Suits : String → Toml.Value → Prop where
  | maxDepth {depth : Nat} (hdepth : depth < 2 ^ 64) : Suits "max_depth" (.integer depth)
  | bindScopes (flag : Bool) : Suits "bind_scopes" (.boolean flag)
  | threads {workers : Nat} (hworkers : workers < 2 ^ 64) : Suits "threads" (.integer workers)

/-- The change that a name and a value make. -/
inductive Assigns (config : Config) : String → Toml.Value → Config → Prop where
  | maxDepth {depth : Nat} (hdepth : depth < 2 ^ 64) :
      Assigns config "max_depth" (.integer depth) { config with maxDepth := depth }
  | bindScopes (flag : Bool) :
      Assigns config "bind_scopes" (.boolean flag) { config with bindScopes := flag }
  | threads {workers : Nat} (hworkers : workers < 2 ^ 64) :
      Assigns config "threads" (.integer workers) { config with threads := workers }

theorem readNumber?_eq_some_iff {number : Nat} :
    readNumber? value = some number ↔ value = .integer number ∧ number < 2 ^ 64 := by
  cases value with
  | integer value =>
      have hbound : numberBound = 2 ^ 64 := rfl
      simp only [readNumber?, hbound, Int.ofNat_eq_natCast, Option.ite_none_right_eq_some,
        Bool.and_eq_true, decide_eq_true_eq, Option.some.injEq, Toml.Value.integer.injEq]
      omega
  | _ => simp [readNumber?]

theorem readBool?_eq_some_iff {flag : Bool} :
    readBool? value = some flag ↔ value = .boolean flag := by
  cases value with
  | boolean value => simp [readBool?]
  | _ => simp [readBool?]

theorem assigns_of_assign? (hassign : config.assign? name value = some changed) :
    config.Assigns name value changed := by
  rw [assign?] at hassign
  split at hassign
  · rename_i hname
    obtain ⟨depth, hdepth, rfl⟩ := Option.map_eq_some_iff.mp hassign
    obtain ⟨rfl, hbound⟩ := readNumber?_eq_some_iff.mp hdepth
    rw [hname]
    exact .maxDepth hbound
  split at hassign
  · rename_i hname
    obtain ⟨flag, hflag, rfl⟩ := Option.map_eq_some_iff.mp hassign
    rw [hname, readBool?_eq_some_iff.mp hflag]
    exact .bindScopes flag
  split at hassign
  · rename_i hname
    obtain ⟨workers, hworkers, rfl⟩ := Option.map_eq_some_iff.mp hassign
    obtain ⟨rfl, hbound⟩ := readNumber?_eq_some_iff.mp hworkers
    rw [hname]
    exact .threads hbound
  · cases hassign

theorem exists_assign?_iff :
    (∃ changed, config.assign? name value = some changed) ↔ Suits name value := by
  constructor
  · rintro ⟨changed, hassign⟩
    cases assigns_of_assign? hassign with
    | maxDepth hdepth => exact .maxDepth hdepth
    | bindScopes flag => exact .bindScopes flag
    | threads hworkers => exact .threads hworkers
  · intro hsuits
    cases hsuits with
    | @maxDepth depth hdepth =>
        have hread := readNumber?_eq_some_iff.mpr ⟨rfl, hdepth⟩
        exact ⟨{ config with maxDepth := depth }, by simp [assign?, hread]⟩
    | bindScopes flag =>
        exact ⟨{ config with bindScopes := flag }, by simp [assign?, readBool?]⟩
    | @threads workers hworkers =>
        have hread := readNumber?_eq_some_iff.mpr ⟨rfl, hworkers⟩
        exact ⟨{ config with threads := workers }, by simp [assign?, hread]⟩

/-- The setting with the name is the one that `get` reads, and `write` is its form in a table. -/
structure Governs {α : Type} (key : String) (get : Config → α) (write : α → Toml.Value) :
    Prop where
  given : ∀ {config name value changed}, Assigns config name value changed →
    name = key → value = write (get changed)
  kept : ∀ {config name value changed}, Assigns config name value changed →
    name ≠ key → get changed = get config

theorem governs_maxDepth : Governs "max_depth" maxDepth fun depth => .integer depth := by
  constructor
  · rintro config name value changed (_ | flag | _) hname
    · rfl
    · exact absurd hname (by decide)
    · exact absurd hname (by decide)
  · rintro config name value changed (_ | flag | _) hname
    · exact absurd rfl hname
    · rfl
    · rfl

theorem governs_bindScopes : Governs "bind_scopes" bindScopes .boolean := by
  constructor
  · rintro config name value changed (_ | flag | _) hname
    · exact absurd hname (by decide)
    · rfl
    · exact absurd hname (by decide)
  · rintro config name value changed (_ | flag | _) hname
    · rfl
    · exact absurd rfl hname
    · rfl

theorem governs_threads : Governs "threads" threads fun workers => .integer workers := by
  constructor
  · rintro config name value changed (_ | flag | _) hname
    · exact absurd hname (by decide)
    · exact absurd hname (by decide)
    · rfl
  · rintro config name value changed (_ | flag | _) hname
    · rfl
    · rfl
    · exact absurd rfl hname

/-! ## A table of settings -/

/-- Each name of the table is that of a setting, and each value is of its kind. -/
def Fits (table : List (String × Toml.Value)) : Prop :=
  ∀ entry ∈ table, Suits entry.1 entry.2

theorem exists_assignAll?_iff (table : List (String × Toml.Value)) :
    ∀ {config : Config}, (∃ result, config.assignAll? table = some result) ↔ Fits table := by
  induction table with
  | nil =>
      intro config
      exact ⟨fun _ => nofun, fun _ => ⟨config, rfl⟩⟩
  | cons entry rest ih =>
      intro config
      obtain ⟨name, value⟩ := entry
      rw [Fits, List.forall_mem_cons, ← @exists_assign?_iff config, assignAll?]
      cases hassign : config.assign? name value with
      | none => simp
      | some changed => simp [ih, Fits]

/-- The last assignment of a setting counts; in a table there is at most one. -/
theorem Governs.assignAll? {α : Type} {key : String} {get : Config → α} {write : α → Toml.Value}
    (hgoverns : Governs key get write) (table : List (String × Toml.Value)) :
    ∀ {config result : Config}, (table.map Prod.fst).Nodup →
      config.assignAll? table = some result →
      (∀ value, (key, value) ∈ table → value = write (get result)) ∧
        (key ∉ table.map Prod.fst → get result = get config) := by
  induction table with
  | nil =>
      intro config result _ hassign
      cases hassign
      exact ⟨nofun, fun _ => rfl⟩
  | cons entry rest ih =>
      intro config result hnodup hassign
      obtain ⟨name, value⟩ := entry
      rw [List.map_cons, List.nodup_cons] at hnodup
      rw [Config.assignAll?] at hassign
      split at hassign
      · rename_i changed hchanged
        have hassigns := assigns_of_assign? hchanged
        obtain ⟨hgiven, hkept⟩ := ih hnodup.2 hassign
        constructor
        · intro given hmem
          obtain heq | hrest := List.mem_cons.mp hmem
          · cases heq
            rw [hkept hnodup.1]
            exact hgoverns.given hassigns rfl
          · exact hgiven given hrest
        · intro habsent
          rw [List.map_cons, List.mem_cons, not_or] at habsent
          rw [hkept habsent.2]
          exact hgoverns.kept hassigns fun hname => habsent.1 hname.symm
      · cases hassign

/-- The settings are those that the table gives, and the default ones where it gives none. -/
structure Reflects (table : List (String × Toml.Value)) (config : Config) : Prop where
  maxDepth : ∀ value, ("max_depth", value) ∈ table → value = .integer config.maxDepth
  bindScopes : ∀ value, ("bind_scopes", value) ∈ table → value = .boolean config.bindScopes
  threads : ∀ value, ("threads", value) ∈ table → value = .integer config.threads
  defaultMaxDepth : "max_depth" ∉ table.map Prod.fst → config.maxDepth = ({} : Config).maxDepth
  defaultBindScopes :
    "bind_scopes" ∉ table.map Prod.fst → config.bindScopes = ({} : Config).bindScopes
  defaultThreads : "threads" ∉ table.map Prod.fst → config.threads = ({} : Config).threads

theorem reflects_of_assignAll? (hnodup : (table.map Prod.fst).Nodup)
    (hassign : ({} : Config).assignAll? table = some config) : config.Reflects table := by
  obtain ⟨hdepth, hdefaultDepth⟩ := governs_maxDepth.assignAll? table hnodup hassign
  obtain ⟨hflag, hdefaultFlag⟩ := governs_bindScopes.assignAll? table hnodup hassign
  obtain ⟨hworkers, hdefaultWorkers⟩ := governs_threads.assignAll? table hnodup hassign
  exact ⟨hdepth, hflag, hworkers, hdefaultDepth, hdefaultFlag, hdefaultWorkers⟩

/-- The limit is zero only if it is given so. -/
theorem Reflects.maxDepth_eq_zero_iff (hreflects : config.Reflects table) :
    config.maxDepth = 0 ↔ ("max_depth", .integer 0) ∈ table := by
  constructor
  · intro hzero
    by_cases hgiven : "max_depth" ∈ table.map Prod.fst
    · obtain ⟨⟨name, value⟩, hmem, rfl⟩ := List.mem_map.mp hgiven
      have hvalue := hreflects.maxDepth value hmem
      rw [hzero] at hvalue
      rw [hvalue] at hmem
      exact hmem
    · rw [hreflects.defaultMaxDepth hgiven] at hzero
      cases hzero
  · intro hmem
    have hvalue := hreflects.maxDepth _ hmem
    rw [Toml.Value.integer.injEq] at hvalue
    exact (Int.ofNat_eq_zero.mp hvalue.symm)

/-! ## A document -/

/-- The reader can pass over every entry that is not the table of settings. -/
def Passable (reader : Toml.Reader) (document : List (String × Toml.Value)) : Prop :=
  ∀ entry ∈ document, entry.1 ≠ "normalizer" → reader.passesOver entry.2 = true

instance (reader : Toml.Reader) (document : List (String × Toml.Value)) :
    Decidable (Passable reader document) :=
  inferInstanceAs (Decidable (∀ entry ∈ document, _ → _))

variable {reader : Toml.Reader} {source : String} {document : List (String × Toml.Value)}
  {own : Option (List (String × Toml.Value))}

theorem lookup_eq_head?_filter (name : String) (document : List (String × Toml.Value)) :
    document.lookup name = (document.filter (·.1 = name)).head?.map Prod.snd := by
  induction document with
  | nil => rfl
  | cons entry rest ih =>
      obtain ⟨other, value⟩ := entry
      by_cases hname : other = name
      · simp [hname]
      · have hbeq : (name == other) = false := by
          simpa using fun heq : name = other => hname heq.symm
        simpa [hname, List.lookup_cons, hbeq] using ih

/-- A document without a table of settings is read as if the table were there and empty. -/
theorem ofEntries?_eq_some_iff (hown : document.lookup "normalizer" = own.map .table) :
    ofEntries? reader document = some config ↔
      Passable reader document ∧ ({} : Config).assignAll? (own.getD []) = some config := by
  have hothers : (document.filter fun entry => !decide (entry.1 = "normalizer")).all
      (reader.passesOver ·.2) = true ↔ Passable reader document := by
    simp only [List.all_eq_true, List.mem_filter, Bool.not_eq_true', decide_eq_false_iff_not,
      and_imp, Passable, ne_eq]
  rw [lookup_eq_head?_filter] at hown
  simp only [ofEntries?, List.partition_eq_filter_filter, Function.comp_def,
    Option.ite_none_right_eq_some, hothers]
  apply and_congr_right
  intro _
  cases hfilter : document.filter (·.1 = "normalizer") with
  | nil =>
      rw [hfilter] at hown
      cases own with
      | none => rfl
      | some table => cases hown
  | cons entry rest =>
      rw [hfilter] at hown
      obtain ⟨name, value⟩ := entry
      cases own with
      | none => cases hown
      | some table =>
          obtain rfl : value = .table table := by
            simpa using hown
          rfl

/-- The names in the table of settings are distinct. -/
theorem nodup_of_lawful (hlawful : reader.Lawful) (hparse : reader.parse? source = some document)
    (hown : document.lookup "normalizer" = own.map .table) :
    ((own.getD []).map Prod.fst).Nodup := by
  cases own with
  | none => exact List.nodup_nil
  | some table =>
      obtain ⟨before, after, rfl, -⟩ := List.lookup_eq_some_iff.mp hown
      cases hlawful.distinct hparse with
      | plain _ htable => exact absurd rfl (htable _)
      | table _ hvalues =>
          have htable := hvalues ("normalizer", .table table)
            (List.mem_append_right _ List.mem_cons_self)
          cases htable with
          | plain _ htable => exact absurd rfl (htable _)
          | table hnames _ => exact hnames

/-- Either the settings are not had, or they are those of the table and have yet to be checked. -/
theorem ofText_cases (hlawful : reader.Lawful) (hparse : reader.parse? source = some document)
    (hown : document.lookup "normalizer" = own.map .table) :
    (¬(Passable reader document ∧ Fits (own.getD [])) ∧
      ofText reader source = .error (.unparsable "<string>")) ∨
    ((Passable reader document ∧ Fits (own.getD [])) ∧
      ∃ config, Reflects (own.getD []) config ∧ ofText reader source = config.validate) := by
  rw [ofText, parse, hparse, Option.bind_some]
  cases hentries : ofEntries? reader document with
  | none =>
      left
      refine ⟨?_, rfl⟩
      rintro ⟨hpassable, hfits⟩
      obtain ⟨config, hassign⟩ := (@exists_assignAll?_iff _ {}).mpr hfits
      cases hentries.symm.trans ((ofEntries?_eq_some_iff hown).mpr ⟨hpassable, hassign⟩)
  | some config =>
      right
      obtain ⟨hpassable, hassign⟩ := (ofEntries?_eq_some_iff hown).mp hentries
      have hreflects := reflects_of_assignAll? (nodup_of_lawful hlawful hparse hown) hassign
      exact ⟨⟨hpassable, (exists_assignAll?_iff _).mp ⟨config, hassign⟩⟩, config, hreflects, rfl⟩

theorem validate_eq (config : Config) :
    config.validate = if config.maxDepth = 0 then .error .zeroDepth else .ok config := by
  by_cases hzero : config.maxDepth = 0
  · simp [validate, isValid, hzero]
  · simp [validate, isValid, hzero]

theorem ofText_congr {other : String} {otherDocument : List (String × Toml.Value)}
    (hparse : reader.parse? source = some document)
    (hother : reader.parse? other = some otherDocument)
    (hown : document.lookup "normalizer" = own.map .table)
    (hlookup : otherDocument.lookup "normalizer" = document.lookup "normalizer")
    (hpassable : Passable reader otherDocument ↔ Passable reader document) :
    ofText reader other = ofText reader source := by
  have hentries : ofEntries? reader otherDocument = ofEntries? reader document := by
    apply Option.ext
    intro config
    rw [ofEntries?_eq_some_iff hown, ofEntries?_eq_some_iff (hlookup.trans hown), hpassable]
  simp only [ofText, parse, hparse, hother, Option.bind_some, hentries]

/-- What comes of a document with the given table of settings. -/
structure Settles (reader : Toml.Reader) (source : String)
    (document table : List (String × Toml.Value)) : Prop where
  accepted : (∃ config, ofText reader source = .ok config) ↔
    (Passable reader document ∧ Fits table) ∧ ("max_depth", .integer 0) ∉ table
  settings : ∀ config, ofText reader source = .ok config →
    config.Reflects table ∧ config.validate = .ok config
  invalid : ofText reader source = .error .zeroDepth ↔
    (Passable reader document ∧ Fits table) ∧ ("max_depth", .integer 0) ∈ table
  unparsable : ofText reader source = .error (.unparsable "<string>") ↔
    ¬(Passable reader document ∧ Fits table)
  /-- Of the other entries it only counts whether the reader can pass over them. -/
  unaffected : ∀ other otherDocument, reader.parse? other = some otherDocument →
    otherDocument.lookup "normalizer" = document.lookup "normalizer" →
    (Passable reader otherDocument ↔ Passable reader document) →
    ofText reader other = ofText reader source

/-- The settings of a document depend on its table of settings alone, as long as the reader can
pass over the rest. -/
theorem ofText_settles (hlawful : reader.Lawful) (hparse : reader.parse? source = some document)
    (hown : document.lookup "normalizer" = own.map .table) :
    Settles reader source document (own.getD []) := by
  have hunaffected : ∀ other otherDocument, reader.parse? other = some otherDocument →
      otherDocument.lookup "normalizer" = document.lookup "normalizer" →
      (Passable reader otherDocument ↔ Passable reader document) →
      ofText reader other = ofText reader source :=
    fun other otherDocument hother => ofText_congr hparse hother hown
  obtain ⟨hbad, houtcome⟩ | ⟨hgood, config, hreflects, houtcome⟩ :=
    ofText_cases hlawful hparse hown
  · constructor
    case accepted => simp [houtcome, hbad]
    case settings => simp [houtcome]
    case invalid => simp [houtcome, hbad]
    case unparsable => simp [houtcome, hbad]
    case unaffected => exact hunaffected
  rw [validate_eq] at houtcome
  have hzero := hreflects.maxDepth_eq_zero_iff
  split at houtcome
  · rename_i hdepth
    have hgiven := hzero.mp hdepth
    constructor
    case accepted => simp [houtcome, hgiven]
    case settings => simp [houtcome]
    case invalid => simp [houtcome, hgood, hgiven]
    case unparsable => simp [houtcome, hgood]
    case unaffected => exact hunaffected
  · rename_i hdepth
    have hgiven := mt hzero.mpr hdepth
    constructor
    case accepted => simp [houtcome, hgood, hgiven]
    case settings =>
      intro result hresult
      rw [houtcome] at hresult
      cases hresult
      exact ⟨hreflects, by rw [validate_eq, if_neg hdepth]⟩
    case invalid => simp [houtcome, hgiven]
    case unparsable => simp [houtcome, hgood]
    case unaffected => exact hunaffected

/-- The depth in a table that gives nothing else. -/
def soleDepth? : Toml.Value → Option Int
  | .table [("max_depth", .integer depth)] => some depth
  | _ => none

theorem soleDepth?_eq_some_iff {depth : Int} :
    soleDepth? value = some depth ↔ value = .table [("max_depth", .integer depth)] := by
  constructor
  · intro hdepth
    unfold soleDepth? at hdepth
    split at hdepth
    · rw [Option.some.inj hdepth]
    · cases hdepth
  · rintro rfl
    rfl

theorem exists_document_of_soleDepth? {depth : Int}
    (hread : (reader.parse? source).any (fun document => decide (Passable reader document ∧
      (document.lookup "normalizer").bind soleDepth? = some depth)) = true) :
    ∃ document, reader.parse? source = some document ∧ Passable reader document ∧
      document.lookup "normalizer" = some (.table [("max_depth", .integer depth)]) := by
  obtain ⟨document, hparse, hdocument⟩ := (Option.any_eq_true _ _).mp hread
  obtain ⟨hpassable, hbind⟩ := of_decide_eq_true hdocument
  obtain ⟨value, hvalue, hdepth⟩ := Option.bind_eq_some_iff.mp hbind
  rw [soleDepth?_eq_some_iff.mp hdepth] at hvalue
  exact ⟨document, hparse, hpassable, hvalue⟩

/-- A limit of seven levels, and one of none. -/
theorem ofText_settles_givenLimits :
    (∃ config, ofText Toml.reader "x = 1\nnormalizer.max_depth = 7\n" = .ok config ∧
      config.Reflects [("max_depth", .integer 7)]) ∧
    ofText Toml.reader "[normalizer]\nmax_depth = 0\n" = .error .zeroDepth := by
  have hfits : ∀ depth : Nat, depth < 2 ^ 64 → Fits [("max_depth", .integer depth)] :=
    fun depth hdepth => List.forall_mem_singleton.mpr (.maxDepth hdepth)
  constructor
  · obtain ⟨document, hparse, hpassable, hown⟩ := @exists_document_of_soleDepth? Toml.reader
      "x = 1\nnormalizer.max_depth = 7\n" 7 (by decide +kernel)
    have hseven := @ofText_settles _ _ _ (some _) Toml.lawful_reader hparse hown
    obtain ⟨config, hconfig⟩ := hseven.accepted.mpr ⟨⟨hpassable, hfits 7 (by decide)⟩, by simp⟩
    exact ⟨config, hconfig, (hseven.settings config hconfig).1⟩
  · obtain ⟨document, hparse, hpassable, hown⟩ := @exists_document_of_soleDepth? Toml.reader
      "[normalizer]\nmax_depth = 0\n" 0 (by decide +kernel)
    have hnone := @ofText_settles _ _ _ (some _) Toml.lawful_reader hparse hown
    exact hnone.invalid.mpr ⟨⟨hpassable, hfits 0 (by decide)⟩, List.mem_singleton_self _⟩

/-- A document with one table, which is not that of the settings and holds a number that no integer
type has. -/
def oversized : String :=
  "[other]\nx = -170141183460469231731687303715884105729\n"

/-- The document has no settings, although it would have the default ones without its table.  The
number alone is no fault: where it is not visited, as behind the last setting of an array, a number
of any size is accepted. -/
theorem ofToml_oversized :
    (∃ document, Toml.reader.parse? oversized = some document ∧
      document.lookup "normalizer" = none) ∧
    ofToml oversized = .error (.unparsable "<string>") ∧ ofToml "" = .ok {} ∧
    ofToml "normalizer = [1, true, 2, 340282366920938463463374607431768211456]\n" =
      .ok ⟨1, true, 2⟩ := by
  have hread : (Toml.reader.parse? oversized).any
      (fun document => (document.lookup "normalizer").isNone) = true := by
    decide +kernel
  obtain ⟨document, hparse, hnone⟩ := (Option.any_eq_true _ _).mp hread
  refine ⟨⟨document, hparse, Option.isNone_iff_eq_none.mp hnone⟩, ?_⟩
  decide +kernel

end Config

end CanonTree
