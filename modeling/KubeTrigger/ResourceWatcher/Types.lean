import Mathlib.Data.List.Sort

/-!
# Resource-watcher configurations

`Config` is the configuration a `resource-watcher` source reads from a trigger's
properties (types.go).  Triggers whose configurations have the same `Key` share one
controller per cluster: `Merge` folds the later configuration into the first one.  `Key`
joins `APIVersion`, `Kind`, `Namespace` and the JSON text of `MatchingLabels` with `-`;
`Merge` appends the events the first configuration lacks and adds the labels whose keys it
lacks, and leaves its `Clusters` alone.

`MatchingLabels` is a Go map; it is modelled by its entries, each key once.
-/

namespace KubeTrigger
namespace ResourceWatcher

/-- `EventType`: the three event types a controller raises. -/
inductive EventType
  | create
  | update
  | delete
deriving DecidableEq, Repr

/-- `Config`.  `namespace_` is the field `Namespace`. -/
structure Config where
  apiVersion : String
  kind : String
  namespace_ : String
  events : List EventType
  matchingLabels : List (String × String)
  clusters : List String
deriving DecidableEq, Repr

/-- `Event`: what the event handlers receive besides the object. -/
structure Event where
  type : EventType
  cluster : String
deriving DecidableEq, Repr

/-!
## The JSON text of the labels

`Key` embeds `json.Marshal(c.MatchingLabels)`: an object whose members are sorted by key,
each key and value a JSON string in which `json.Marshal` escapes quotes, backslashes,
control characters, `<`, `>`, `&`, U+2028 and U+2029.
-/

/-- One character of a JSON string as `encoding/json` writes it, with HTML escaping. -/
def escapeChar (c : Char) : String :=
  if c = '"' then "\\\""
  else if c = '\\' then "\\\\"
  else if c = '\n' then "\\n"
  else if c = '\r' then "\\r"
  else if c = '\t' then "\\t"
  else if c = '\x08' then "\\b"
  else if c = '\x0c' then "\\f"
  else if c.toNat < 0x20 ∨ c = '<' ∨ c = '>' ∨ c = '&' then
    "\\u00" ++ (Nat.digitChar (c.toNat / 16)).toString ++ (Nat.digitChar (c.toNat % 16)).toString
  else if c = '\u2028' then "\\u2028"
  else if c = '\u2029' then "\\u2029"
  else c.toString

/-- A string as a JSON string. -/
def quote (s : String) : String :=
  "\"" ++ String.join (s.toList.map escapeChar) ++ "\""

/-- `json.Marshal` of a `map[string]string`. -/
def marshalLabels (labels : List (String × String)) : String :=
  let sorted := labels.insertionSort (fun a b => decide (a.1 ≤ b.1))
  "\x7b" ++ String.intercalate "," (sorted.map (fun kv => quote kv.1 ++ ":" ++ quote kv.2)) ++
    "\x7d"

example : marshalLabels [("b", "<1>"), ("a", "x\"y")] =
    "\x7b\"a\":\"x\\\"y\",\"b\":\"\\u003c1\\u003e\"\x7d" := by
  decide +kernel

/-!
## `Key` and `Merge`
-/

/-- `Key`: the configurations that share one controller. -/
def Config.key (c : Config) : String :=
  let labels := if c.matchingLabels.isEmpty then "" else marshalLabels c.matchingLabels
  String.intercalate "-" [c.apiVersion, c.kind, c.namespace_, labels]

/-- The loop of `Merge` over the events: append each event of `new` that is not yet there. -/
def mergeEvents (events new : List EventType) : List EventType :=
  new.foldl (fun events event => if event ∈ events then events else events ++ [event]) events

/-- The loop of `Merge` over the labels: add each label of `new` whose key is not yet there. -/
def mergeLabels (labels new : List (String × String)) : List (String × String) :=
  new.foldl (fun labels kv => if (labels.lookup kv.1).isSome then labels else labels ++ [kv])
    labels

/-- `Merge`: `Clusters` are not merged. -/
def Config.merge (c new : Config) : Config :=
  { c with
    events := mergeEvents c.events new.events
    matchingLabels := mergeLabels c.matchingLabels new.matchingLabels }

section Merge

variable {c new : Config}

@[simp] theorem merge_apiVersion : (c.merge new).apiVersion = c.apiVersion := rfl
@[simp] theorem merge_kind : (c.merge new).kind = c.kind := rfl
@[simp] theorem merge_namespace : (c.merge new).namespace_ = c.namespace_ := rfl
@[simp] theorem merge_clusters : (c.merge new).clusters = c.clusters := rfl
@[simp] theorem merge_events : (c.merge new).events = mergeEvents c.events new.events := rfl

@[simp] theorem merge_matchingLabels :
    (c.merge new).matchingLabels = mergeLabels c.matchingLabels new.matchingLabels := rfl

@[simp] theorem mem_mergeEvents {e : EventType} :
    forall {events new : List EventType}, e ∈ mergeEvents events new ↔ e ∈ events ∨ e ∈ new := by
  intro events new
  induction new generalizing events with
  | nil => simp [mergeEvents]
  | cons event rest ih =>
      have hstep : mergeEvents events (event :: rest) =
          mergeEvents (if event ∈ events then events else events ++ [event]) rest := rfl
      rw [hstep, ih]
      by_cases hin : event ∈ events
      · rw [if_pos hin]
        constructor
        · rintro (h | h)
          · exact Or.inl h
          · exact Or.inr (List.mem_cons_of_mem event h)
        · rintro (h | h)
          · exact Or.inl h
          · rcases List.mem_cons.mp h with rfl | h
            · exact Or.inl hin
            · exact Or.inr h
      · rw [if_neg hin]
        simp only [List.mem_append, List.mem_cons]
        tauto

/-- The merged events are empty, which `processItem` reads as every event, only when both
lists are. -/
theorem mergeEvents_eq_nil {events new : List EventType} :
    mergeEvents events new = [] ↔ events = [] ∧ new = [] := by
  simp only [List.eq_nil_iff_forall_not_mem, mem_mergeEvents, not_or]
  constructor
  · intro h
    exact ⟨fun e => (h e).1, fun e => (h e).2⟩
  · intro h e
    exact ⟨h.1 e, h.2 e⟩

theorem mergeLabels_of_lookup {labels : List (String × String)} :
    forall {new : List (String × String)},
      (forall kv, kv ∈ new -> (labels.lookup kv.1).isSome = true) ->
        mergeLabels labels new = labels := by
  intro new
  induction new with
  | nil => intro _; rfl
  | cons kv rest ih =>
      intro hall
      have hkv : (labels.lookup kv.1).isSome = true := hall kv (List.mem_cons_self ..)
      have hstep : mergeLabels labels (kv :: rest) =
          mergeLabels (if (labels.lookup kv.1).isSome then labels else labels ++ [kv]) rest :=
        rfl
      rw [hstep, if_pos hkv]
      exact ih (fun kv' h => hall kv' (List.mem_cons_of_mem kv h))

theorem lookup_isSome_of_mem {labels : List (String × String)} {kv : String × String}
    (h : kv ∈ labels) : (labels.lookup kv.1).isSome = true := by
  induction labels with
  | nil => cases h
  | cons head rest ih =>
      obtain ⟨k, v⟩ := head
      rcases List.mem_cons.mp h with rfl | h
      · simp only [List.lookup_cons_self, Option.isSome_some]
      · by_cases heq : kv.1 = k
        · simp only [heq, List.lookup_cons_self, Option.isSome_some]
        · rw [List.lookup_cons, beq_false_of_ne heq]
          exact ih h

theorem mergeLabels_self (labels : List (String × String)) : mergeLabels labels labels = labels :=
  mergeLabels_of_lookup (fun _ h => lookup_isSome_of_mem h)

end Merge

end ResourceWatcher
end KubeTrigger
