import Mathlib.Data.List.Basic

/-!
# Filters

`ApplyFilter` (pkg/filter/filter.go) decides whether an event is passed on to the
trigger's action.  `BuildFilterTemplate` turns the trigger's filter text into a CUE file
whose field `filter` is the filter: the text itself when it imports nothing, else its
imports followed by `filter: { ... }` around the rest.  The file is compiled with the
event's context, and the filter's value decides: `filter.filter` when it exists, else
`filter`.  Every error keeps the event out; a value that is not a bool lets it through.

Parsing, `fix.File`, formatting and compiling CUE are the libraries': `ApplyFilter` takes
them as the functions of `Cue`, over declarations of a type `Decl` and a context of a
type `Ctx`.  A compiled value is seen through `Value`, as far as `ApplyFilter` reads it.
-/

namespace KubeTrigger
namespace Filter

/-- `unicode.IsSpace`: the Latin-1 spaces, and the other characters of Unicode's
`White_Space`. -/
def isSpace (c : Char) : Bool :=
  match c.toNat with
  | 0x09 | 0x0A | 0x0B | 0x0C | 0x0D | 0x20 | 0x85 | 0xA0 => true
  | 0x1680 | 0x2028 | 0x2029 | 0x202F | 0x205F | 0x3000 => true
  | n => decide (0x2000 ≤ n ∧ n ≤ 0x200A)

/-- `strings.TrimSpace`. -/
def trimSpace (s : String) : String :=
  String.ofList ((s.toList.dropWhile isSpace).reverse.dropWhile isSpace).reverse

/-- A compiled CUE value, as `ApplyFilter` reads it: bools, structs of fields, errors
(bottom) with their message, and `other` for any other value. -/
inductive Value
  | bool (b : Bool)
  | struct (fields : List (String × Value))
  | bottom (message : String)
  | other

/-- `LookupPath` along the selectors of a parsed path; `none` for a value that does not
exist. -/
def Value.lookupPath (v : Value) : List String -> Option Value
  | [] => some v
  | sel :: rest =>
      match v with
      | Value.struct fields =>
          match fields.lookup sel with
          | some w => w.lookupPath rest
          | none => none
      | _ => none

/-- `Err()` of a value that exists. -/
def Value.err : Value -> Option String
  | Value.bottom message => some message
  | _ => none

/-- `Bool()` of a value without error; `none` for a value that is not a bool. -/
def Value.toBool : Value -> Option Bool
  | Value.bool b => some b
  | _ => none

/-- A parsed CUE file, as `BuildFilterTemplate` reads it: the import paths the parser
collected in `Imports`, and the declarations. -/
structure File (Decl : Type) where
  imports : List String
  decls : List Decl

/-- The CUE libraries `ApplyFilter` calls: `parser.ParseFile`, `fix.File`, the test for an
`*ast.ImportDecl`, `format.Node` with `format.Simplify()`, and
`cuex.CompileStringWithOptions` with the context as the extra data `context`. -/
structure Cue (Decl Ctx : Type) where
  parseFile : String -> Except String (File Decl)
  fix : File Decl -> File Decl
  isImportDecl : Decl -> Bool
  formatNode : List Decl -> Except String String
  compile : String -> Ctx -> Except String Value

/-- An error of `ApplyFilter`: one of the CUE libraries, with its text, or `Err()` of a
value `LookupPath` did not find. -/
inductive Error
  | cue (message : String)
  | notFound (path : List String)
deriving DecidableEq

variable {Decl Ctx : Type}

/-- `encodeDeclsToString`. -/
def encodeDeclsToString (cue : Cue Decl Ctx) (decls : List Decl) : Except Error String :=
  match cue.formatNode decls with
  | Except.error err => Except.error (Error.cue ("failed to encode cue: " ++ err))
  | Except.ok bs => Except.ok (trimSpace bs)

/-- `filterTemplate` filled in by `fmt.Sprintf`. -/
def filterTemplate (importString contentString : String) : String :=
  "\n" ++ importString ++ "\nfilter: \x7b\n\t" ++ contentString ++ "\n\x7d\n"

/-- `BuildFilterTemplate`. -/
def buildFilterTemplate (cue : Cue Decl Ctx) (filter : String) : Except Error String :=
  match cue.parseFile filter with
  | Except.error err => Except.error (Error.cue err)
  | Except.ok f =>
      let n := cue.fix f
      if n.imports = [] then Except.ok ("filter: " ++ filter)
      else
        let importDecls := n.decls.filter cue.isImportDecl
        let contentDecls := n.decls.filter (fun decl => !cue.isImportDecl decl)
        match encodeDeclsToString cue importDecls with
        | Except.error err => Except.error err
        | Except.ok importString =>
            match encodeDeclsToString cue contentDecls with
            | Except.error err => Except.error err
            | Except.ok contentString => Except.ok (filterTemplate importString contentString)

/-- The path of the value `ApplyFilter` decides by: `filter.filter` when it exists, else
`filter`. -/
def resultPath (filterVal : Value) : List String :=
  if (filterVal.lookupPath ["filter", "filter"]).isSome then ["filter", "filter"]
  else ["filter"]

/-- What `ApplyFilter` makes of the compiled value: its error, else the error of the value
at `resultPath` or its absence, else the bool it is; a value that is not a bool passes. -/
def decideValue (filterVal : Value) : Bool × Option Error :=
  match filterVal.err with
  | some err => (false, some (Error.cue err))
  | none =>
      match filterVal.lookupPath (resultPath filterVal) with
      | none => (false, some (Error.notFound (resultPath filterVal)))
      | some result =>
          match result.err with
          | some err => (false, some (Error.cue err))
          | none =>
              match result.toBool with
              | none => (true, none)
              | some resultBool => (resultBool, none)

/-- `ApplyFilter`: whether the event is kept, and the error, `none` for `nil`. -/
def applyFilter (cue : Cue Decl Ctx) (contextData : Ctx) (filter : String) :
    Bool × Option Error :=
  match buildFilterTemplate cue filter with
  | Except.error err => (false, some err)
  | Except.ok template =>
      match cue.compile template contextData with
      | Except.error err => (false, some (Error.cue err))
      | Except.ok filterVal => decideValue filterVal

theorem decideValue_error {filterVal : Value} {err : Error}
    (h : (decideValue filterVal).2 = some err) : (decideValue filterVal).1 = false := by
  unfold decideValue at h ⊢
  rcases he : filterVal.err with _ | e
  · rcases hr : filterVal.lookupPath (resultPath filterVal) with _ | result
    · rfl
    · rcases hre : result.err with _ | e'
      · -- a result without error is no error of `ApplyFilter`
        rcases hb : result.toBool with _ | b <;> simp [he, hr, hre, hb] at h
      · simp [hre]
  · rfl

/-- Every error keeps the event out. -/
theorem applyFilter_error {cue : Cue Decl Ctx} {contextData : Ctx} {filter : String}
    {err : Error} (h : (applyFilter cue contextData filter).2 = some err) :
    (applyFilter cue contextData filter).1 = false := by
  unfold applyFilter at h ⊢
  rcases hb : buildFilterTemplate cue filter with e | template
  · rfl
  · rcases hc : cue.compile template contextData with e | filterVal
    · simp only [hc]
    · simp only [hb, hc] at h
      simp only [hc]
      exact decideValue_error h

/-- The compiled value keeps the event exactly when it has no error and its
`filter.filter`, or else `filter`, exists, has no error and is not `false`. -/
theorem decideValue_kept {filterVal : Value} :
    (decideValue filterVal).1 = true ↔
      filterVal.err = none ∧ ∃ result, filterVal.lookupPath (resultPath filterVal) = some result ∧
        result.err = none ∧ result.toBool ≠ some false := by
  unfold decideValue
  rcases he : filterVal.err with _ | e
  · rcases hr : filterVal.lookupPath (resultPath filterVal) with _ | result
    · simp
    · rcases hre : result.err with _ | e'
      · rcases hb : result.toBool with _ | b
        · simp [hre, hb]
        · cases b <;> simp [hre, hb]
      · simp [hre]
  · simp

/-- A filter with imports is compiled into a struct: unless it has a field `filter` of its
own, the result is not a bool, and every event passes. -/
example : (decideValue (Value.struct [("filter", Value.struct [("a", Value.bool false)])])).1 =
    true := by decide

example : (decideValue
    (Value.struct [("filter", Value.struct [("filter", Value.bool false)])])).1 = false := by
  decide

/-- An event is kept exactly when the filter's template builds and compiles with the
context to a value that keeps it. -/
theorem applyFilter_kept {cue : Cue Decl Ctx} {contextData : Ctx} {filter : String} :
    (applyFilter cue contextData filter).1 = true ↔
      ∃ template filterVal, buildFilterTemplate cue filter = Except.ok template ∧
        cue.compile template contextData = Except.ok filterVal ∧
        (decideValue filterVal).1 = true := by
  unfold applyFilter
  rcases hb : buildFilterTemplate cue filter with e | template
  · simp
  · rcases hc : cue.compile template contextData with e | filterVal
    · simp [hc]
    · simp [hc]

end Filter
end KubeTrigger
