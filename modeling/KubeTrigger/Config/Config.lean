import KubeTrigger.Foundation.Except
import KubeTrigger.EventHandler.EventHandler
import KubeTrigger.Sources.Startup

set_option linter.dupNamespace false

/-!
# The configuration

`Config` (config.go) is the list of triggers `run` starts.  `NewFromFileOrDir` (parser.go)
reads it from one file, or from every file of a directory whose extension has a parser, in
the order the directory lists them, skipping the others; `Validate` checks that there is a
trigger, and that the source type and the action of each one exist.

The file system, `filepath.Join` and the CUE, YAML and JSON decoders that `cueParser`,
`yamlParser` and `jsonParser` call are the environment (`FileSystem`); `filepath.Ext` is
modelled.  Errors are the texts `Error()` gives, except `ErrUnsupportedExtension`, which
`errors.Is` tells apart.

The directory loop skips a file with `continue` and stops at the first file that fails;
`loadFiles_eq` says what it amounts to: the files with a parser, read and decoded in order,
their triggers concatenated.
-/

namespace KubeTrigger
namespace Config

/-- `v1alpha1.Source`. -/
structure Source (Raw : Type) where
  type : String
  properties : Raw

/-- `v1alpha1.TriggerMeta`. -/
structure TriggerMeta (Raw : Type) where
  source : Source Raw
  filter : String
  action : Action.ActionMeta

/-- `Config`. -/
structure Config (Raw : Type) where
  triggers : List (TriggerMeta Raw)

/-- The errors of parser.go. -/
inductive Error
  | unsupportedExtension
  | other (msg : String)
deriving DecidableEq

/-- `Error()`. -/
def Error.error : Error -> String
  | unsupportedExtension => "extension not supported"
  | other msg => msg

/-- `errors.Wrapf(err, msg)`: the message, then the cause. -/
def wrap (msg : String) (err : Error) : Error :=
  Error.other (msg ++ ": " ++ err.error)

/-- The decoders of `parsers`. -/
inductive Format
  | cue
  | yaml
  | json
deriving DecidableEq

/-- `parsers`, by extension. -/
def parsers (ext : String) : Option Format :=
  if ext = ".cue" then some Format.cue
  else if ext = ".yaml" then some Format.yaml
  else if ext = ".yml" then some Format.yaml
  else if ext = ".json" then some Format.json
  else none

/-- The scan of `filepath.Ext` from the last character of the path back to the last
separator: the extension starts at the first dot it meets. -/
def extScan : List Char -> Option (List Char)
  | [] => none
  | c :: cs =>
      if c = '/' then none
      else if c = '.' then some ['.']
      else (extScan cs).map (fun e => e ++ [c])

/-- `filepath.Ext`. -/
def ext (path : String) : String :=
  match extScan path.toList.reverse with
  | some e => String.ofList e
  | none => ""

example : ext "triggers/a.b/watch.yml" = ".yml" := by decide

example : ext "triggers/a.b/README" = "" := by decide

/-- What parser.go takes from its libraries. -/
structure FileSystem (Data Raw : Type) where
  /-- `os.Stat`: its error, or whether the path is a directory -/
  stat : String -> Except String Bool
  /-- `os.ReadDir`: the entries' names, and whether each is a directory -/
  readDir : String -> Except String (List (String × Bool))
  readFile : String -> Except String Data
  join : String -> String -> String
  decode : Format -> Data -> Except String (Config Raw)

variable {Data Raw : Type}

/-- `findFilesInDir`: the entries of the directory that are not directories. -/
def findFilesInDir (fs : FileSystem Data Raw) (dir : String) : Except Error (List String) :=
  match fs.readDir dir with
  | Except.error err => Except.error (Error.other err)
  | Except.ok entries =>
      Except.ok (entries.filterMap fun f => if f.2 then none else some (fs.join dir f.1))

/-- `parseFromFile`. -/
def parseFromFile (fs : FileSystem Data Raw) (path : String) : Except Error (Config Raw) :=
  match parsers (ext path) with
  | none => Except.error Error.unsupportedExtension
  | some parser =>
      match fs.readFile path with
      | Except.error err => Except.error (wrap "cannot read config file content" (Error.other err))
      | Except.ok data => (fs.decode parser data).mapError Error.other

/-- The loop of `NewFromFileOrDir` over the files of a directory, from the triggers `c`
read so far. -/
def loadFiles (fs : FileSystem Data Raw) (c : Config Raw) : List String -> Except Error (Config Raw)
  | [] => Except.ok c
  | f :: files =>
      match parseFromFile fs f with
      | Except.error Error.unsupportedExtension => loadFiles fs c files
      | Except.error err => Except.error (wrap ("reading " ++ f ++ " failed") err)
      | Except.ok subConfig => loadFiles fs ⟨c.triggers ++ subConfig.triggers⟩ files

/-- `NewFromFileOrDir`. -/
def newFromFileOrDir (fs : FileSystem Data Raw) (path : String) : Except Error (Config Raw) :=
  match fs.stat path with
  | Except.error err => Except.error (Error.other err)
  | Except.ok true =>
      match findFilesInDir fs path with
      | Except.error err => Except.error err
      | Except.ok files => loadFiles fs ⟨[]⟩ files
  | Except.ok false => parseFromFile fs path

/-- `Validate`, with the registry's `Get` and `LoadTemplate` of a trigger-action
definition. -/
def validate {H : Type} (sourceReg : Sources.Registry H)
    (loadTemplate : String -> Except String String) (c : Config Raw) : Except String Unit :=
  if c.triggers.length = 0 then Except.error "no triggers found"
  else
    c.triggers.forM fun w =>
      match sourceReg.get w.source.type with
      | none => Except.error ("no such source found: " ++ w.source.type)
      | some _ =>
          match loadTemplate w.action.type with
          | Except.error err =>
              Except.error ("no such action found: " ++ w.action.type ++ ": " ++ err)
          | Except.ok _ => Except.ok ()

/-!
## Reading the files
-/

variable {fs : FileSystem Data Raw}

/-- A file without a parser is skipped: `errors.Is` finds `ErrUnsupportedExtension`. -/
theorem parseFromFile_of_none {path : String} (h : parsers (ext path) = none) :
    parseFromFile fs path = Except.error Error.unsupportedExtension := by
  simp [parseFromFile, h]

/-- A file with a parser never fails with `ErrUnsupportedExtension`. -/
theorem parseFromFile_ne_unsupported {path : String} (h : (parsers (ext path)).isSome) :
    parseFromFile fs path ≠ Except.error Error.unsupportedExtension := by
  obtain ⟨parser, hp⟩ := Option.isSome_iff_exists.mp h
  unfold parseFromFile
  rw [hp]
  dsimp only
  cases hr : fs.readFile path with
  | error err => simp [wrap]
  | ok data =>
      cases hd : fs.decode parser data with
      | error err => simp [Except.mapError, hd]
      | ok c => simp [Except.mapError, hd]

/-- The files of a directory that `parsers` has a parser for. -/
def supportedFiles (files : List String) : List String :=
  files.filter fun f => (parsers (ext f)).isSome

/-!
## Which files have a parser

`filepath.Ext` scans back from the end of the path to the first dot, and gives up at a
separator; `parsers` knows four extensions.  Together they read a file exactly when its path
ends with one of them.
-/

/-- Scanning back over characters that are neither a dot nor a separator, up to a dot: the
extension is the dot and the characters scanned. -/
theorem extScan_append {t : List Char} (ht : forall c, c ∈ t -> c ≠ '/' ∧ c ≠ '.')
    (r : List Char) : extScan (t ++ '.' :: r) = some ('.' :: t.reverse) := by
  induction t with
  | nil => simp [extScan]
  | cons c t ih =>
      obtain ⟨hs, hd⟩ := ht c List.mem_cons_self
      rw [List.cons_append, extScan, if_neg hs, if_neg hd,
        ih (fun c' hc' => ht c' (List.mem_cons_of_mem c hc'))]
      simp

/-- What the scan finds is a dot and the characters after it. -/
theorem extScan_eq_some {l e : List Char} (h : extScan l = some e) :
    ∃ t r, l = t ++ '.' :: r ∧ e = '.' :: t.reverse := by
  induction l generalizing e with
  | nil => cases h
  | cons c l ih =>
      unfold extScan at h
      split at h
      · cases h
      · split at h
        · -- the dot itself
          rename_i hd
          cases h
          exact ⟨[], l, by rw [hd]; rfl, rfl⟩
        · obtain ⟨e', he', rfl⟩ := Option.map_eq_some_iff.mp h
          obtain ⟨t, r, rfl, rfl⟩ := ih he'
          exact ⟨c :: t, r, rfl, by simp⟩

/-- `filepath.Ext` of a path that ends with a dot followed by characters that are neither a
dot nor a separator. -/
theorem ext_append (base : String) {e : String} {s : List Char} (he : e.toList = '.' :: s)
    (hs : forall c, c ∈ s -> c ≠ '/' ∧ c ≠ '.') : ext (base ++ e) = e := by
  have hrev : (base ++ e).toList.reverse = s.reverse ++ '.' :: base.toList.reverse := by
    rw [String.toList_append, he, List.reverse_append, List.reverse_cons, List.append_assoc,
      List.singleton_append]
  unfold ext
  rw [hrev, extScan_append (fun c hc => hs c (List.mem_reverse.mp hc)), List.reverse_reverse,
    ← he]
  exact String.ofList_toList

theorem parsers_isSome_iff (x : String) :
    (parsers x).isSome ↔ x ∈ [".cue", ".yaml", ".yml", ".json"] := by
  unfold parsers
  split_ifs <;> simp_all

/-- A path whose extension has a parser ends with that extension. -/
theorem eq_append_ext {path : String} (h : (parsers (ext path)).isSome) :
    ∃ base, path = base ++ ext path := by
  unfold ext at h ⊢
  cases hscan : extScan path.toList.reverse with
  | none =>
      rw [hscan] at h
      cases h
  | some e =>
      obtain ⟨t, r, hl, rfl⟩ := extScan_eq_some hscan
      -- the path is what precedes the dot, then the dot and the extension
      refine ⟨String.ofList r.reverse, String.ext ?_⟩
      rw [String.toList_append, String.toList_ofList, String.toList_ofList,
        ← List.reverse_reverse path.toList, hl]
      simp

/-- The files of a directory that get read are those whose path ends with `.cue`, `.yaml`,
`.yml` or `.json`, whatever precedes the extension. -/
theorem mem_supportedFiles {f : String} {files : List String} :
    f ∈ supportedFiles files ↔
      f ∈ files ∧ ∃ base e, f = base ++ e ∧ e ∈ [".cue", ".yaml", ".yml", ".json"] := by
  unfold supportedFiles
  rw [List.mem_filter, parsers_isSome_iff]
  refine and_congr_right fun _ => ⟨fun hmem => ?_, ?_⟩
  · obtain ⟨base, hbase⟩ := eq_append_ext ((parsers_isSome_iff _).mpr hmem)
    exact ⟨base, ext f, hbase, hmem⟩
  · rintro ⟨base, e, rfl, he⟩
    -- each of the four is a dot and letters
    have hext : ext (base ++ e) = e := by
      simp only [List.mem_cons, List.not_mem_nil, or_false] at he
      rcases he with rfl | rfl | rfl | rfl
      · exact ext_append base (s := ['c', 'u', 'e']) rfl (by simp)
      · exact ext_append base (s := ['y', 'a', 'm', 'l']) rfl (by simp)
      · exact ext_append base (s := ['y', 'm', 'l']) rfl (by simp)
      · exact ext_append base (s := ['j', 's', 'o', 'n']) rfl (by simp)
    rw [hext]
    exact he

/-- A backup of a configuration file is not read, and neither is a file without an
extension; a file named only by its extension is. -/
theorem supportedFiles_demo :
    ("triggers/a.yaml.bak" ∈ supportedFiles ["triggers/a.yaml.bak", "triggers/.json", "README"] ↔
        "triggers/a.yaml.bak" ∈ ["triggers/a.yaml.bak", "triggers/.json", "README"] ∧
          ∃ base e, "triggers/a.yaml.bak" = base ++ e ∧ e ∈ [".cue", ".yaml", ".yml", ".json"]) ∧
      supportedFiles ["triggers/a.yaml.bak", "triggers/.json", "README"] = ["triggers/.json"] :=
  ⟨mem_supportedFiles, by decide⟩

/-- Read and decode a file of the directory, naming it in the error. -/
def readFileNamed (fs : FileSystem Data Raw) (f : String) : Except Error (Config Raw) :=
  (parseFromFile fs f).mapError (wrap ("reading " ++ f ++ " failed"))

/-- The loop over the files of a directory reads the files with a parser in order, fails
with the error of the first one that fails, and otherwise appends their triggers to those
read so far. -/
theorem loadFiles_eq (c : Config Raw) (files : List String) :
    loadFiles fs c files =
      ((supportedFiles files).mapM (readFileNamed fs)).map
        (fun cs => ⟨c.triggers ++ (cs.map Config.triggers).flatten⟩) := by
  induction files generalizing c with
  | nil =>
      show Except.ok c = Except.ok ⟨c.triggers ++ []⟩
      rw [List.append_nil]
  | cons f files ih =>
      cases hp : parsers (ext f) with
      | none =>
          -- no parser: `continue`
          have hskip : supportedFiles (f :: files) = supportedFiles files := by
            simp [supportedFiles, hp]
          rw [hskip, ← ih c]
          simp only [loadFiles, parseFromFile_of_none hp]
      | some parser =>
          have hkeep : supportedFiles (f :: files) = f :: supportedFiles files := by
            simp [supportedFiles, hp]
          have hne : parseFromFile fs f ≠ Except.error Error.unsupportedExtension :=
            parseFromFile_ne_unsupported (by rw [hp]; rfl)
          rw [hkeep, List.mapM_cons]
          cases hf : parseFromFile fs f with
          | error err =>
              have herr : err ≠ Error.unsupportedExtension := fun he => hne (by rw [hf, he])
              simp only [loadFiles, hf, readFileNamed, Except.mapError]
              cases err with
              | unsupportedExtension => exact absurd rfl herr
              | other msg => rfl
          | ok sub =>
              simp only [loadFiles, hf, readFileNamed, Except.mapError]
              rw [ih]
              cases (supportedFiles files).mapM (readFileNamed fs) with
              | error err => rfl
              | ok cs =>
                  show Except.ok _ = Except.ok _
                  simp [List.append_assoc]

/-!
## Loading and validating a configuration
-/

/-- From a directory, `NewFromFileOrDir` reads the files with a parser in the order the
directory lists them, and skips the other files and the subdirectories; the first file that
cannot be read or decoded fails the load under its name, and otherwise the configuration
holds the triggers of all of them, file after file. -/
theorem newFromFileOrDir_dir {path : String} {files : List String}
    (hstat : fs.stat path = Except.ok true) (hfiles : findFilesInDir fs path = Except.ok files) :
    newFromFileOrDir fs path =
      ((supportedFiles files).mapM (readFileNamed fs)).map
        (fun cs => ⟨(cs.map Config.triggers).flatten⟩) := by
  unfold newFromFileOrDir
  rw [hstat]
  dsimp only
  rw [hfiles]
  dsimp only
  rw [loadFiles_eq]
  rfl

/-- A directory listing two configuration files, a README and a subdirectory; a file decodes
to one cron trigger whose properties are the file's name. -/
def demoFileSystem : FileSystem String String :=
  { stat := fun _ => Except.ok true
    readDir := fun _ => Except.ok [("a.yaml", false), ("README", false), ("sub", true),
      ("b.json", false)]
    readFile := fun p => Except.ok p
    join := fun _ f => f
    decode := fun _ data => Except.ok ⟨[⟨⟨"cronjob", data⟩, "", ⟨"bump", none⟩⟩]⟩ }

/-- The README is skipped and the subdirectory not listed: the triggers of the two files, in
order. -/
theorem newFromFileOrDir_dir_demo :
    newFromFileOrDir demoFileSystem "triggers" =
        (((supportedFiles ["a.yaml", "README", "b.json"]).mapM (readFileNamed demoFileSystem)).map
          (fun cs => ⟨(cs.map Config.triggers).flatten⟩)) ∧
      newFromFileOrDir demoFileSystem "triggers" =
        Except.ok ⟨[⟨⟨"cronjob", "a.yaml"⟩, "", ⟨"bump", none⟩⟩,
          ⟨⟨"cronjob", "b.json"⟩, "", ⟨"bump", none⟩⟩]⟩ :=
  ⟨newFromFileOrDir_dir rfl rfl, rfl⟩

/-- `Validate` accepts a configuration that has a trigger, each of whose source types is
registered and whose action's template loads. -/
theorem validate_eq_ok {H : Type} {sourceReg : Sources.Registry H}
    {loadTemplate : String -> Except String String} {c : Config Raw} :
    validate sourceReg loadTemplate c = Except.ok () ↔
      c.triggers ≠ [] ∧ ∀ w, w ∈ c.triggers ->
        (sourceReg.get w.source.type).isSome ∧ ∃ t, loadTemplate w.action.type = Except.ok t := by
  unfold validate
  by_cases hnil : c.triggers = []
  · simp [hnil]
  rw [if_neg (by simpa using hnil), Foundation.forM_eq_ok]
  refine ⟨fun h => ⟨hnil, fun w hw => ?_⟩, fun h w hw => ?_⟩
  · have hw' := h w hw
    cases hg : sourceReg.get w.source.type with
    | none => simp [hg] at hw'
    | some s =>
        cases hl : loadTemplate w.action.type with
        | error err => simp [hg, hl] at hw'
        | ok t => exact ⟨rfl, t, rfl⟩
  · obtain ⟨hg, t, hl⟩ := h.2 w hw
    obtain ⟨s, hs⟩ := Option.isSome_iff_exists.mp hg
    simp [hs, hl]

end Config
end KubeTrigger
