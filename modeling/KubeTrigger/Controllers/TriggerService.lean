import Mathlib.Data.List.AList

/-!
# The TriggerService reconciler: worker roles

`createWorker` (controllers/triggerservice/triggerservice_controller.go) compiles the worker
template of a `TriggerService` to a CUE value and, before it creates the worker's
deployment, calls `createRoles`: the service account that the value's
`parameter.serviceAccount` names must exist in the TriggerService's namespace, and the
ClusterRoleBinding `kube-trigger` must list it among its subjects.

The API server is a map from kind, namespace and name to objects, one map per kind.  Every
call of `Get`, `Create` and `Update` either fails with an error the environment chooses
(`faults`, one entry per call, `none` for a call that does not fail) or acts on the map:
`Get` of a missing object and `Update` of one are `NotFound`, `Create` of a present one is
`AlreadyExists`.  A call that fails changes nothing.  The reconciler's functions pass the
server's state along explicitly and return the error they end with, `none` for `nil`.

Template loading, CUE compilation and JSON decoding are the libraries': `createWorker`
takes them as functions.
-/

namespace KubeTrigger
namespace Controllers

/-- `types.NamespacedName`; a cluster-scoped object has the namespace `""`. -/
structure NamespacedName where
  namespace_ : String
  name : String
deriving DecidableEq

/-- `metav1.OwnerReference`, with the fields `SetOwnerReference` writes. -/
structure OwnerReference where
  apiVersion : String
  kind : String
  name : String
  uid : String
  blockOwnerDeletion : Bool
deriving DecidableEq

/-- `corev1.ServiceAccount`: its owner references. -/
structure ServiceAccount where
  ownerReferences : List OwnerReference
deriving DecidableEq

/-- `rbacv1.Subject`. -/
structure Subject where
  kind : String
  apiGroup : String
  name : String
  namespace_ : String
deriving DecidableEq

/-- `rbacv1.ClusterRoleBinding`: its subjects. -/
structure ClusterRoleBinding where
  subjects : List Subject
deriving DecidableEq

/-- `appsv1.Deployment`: its name, namespace and owner references. -/
structure Deployment where
  name : String
  namespace_ : String
  ownerReferences : List OwnerReference
deriving DecidableEq

/-- `Worker` of a TriggerService's spec; `properties` is the raw JSON of `Properties`. -/
structure Worker where
  template : String
  properties : Option String
deriving DecidableEq

/-- `TriggerService`: the metadata the reconciler reads and the spec's worker. -/
structure TriggerService where
  name : String
  namespace_ : String
  uid : String
  worker : Option Worker
deriving DecidableEq

/-- An error of the API server.  `IsNotFound` tells the first kind from the others. -/
inductive ApiError
  | notFound (name : String)
  | alreadyExists (name : String)
  | conflict (name : String)
  | other (message : String)
deriving DecidableEq

/-- `apierrors.IsNotFound`. -/
def ApiError.isNotFound : ApiError -> Bool
  | ApiError.notFound _ => true
  | _ => false

/-- The error a reconciler function ends with: the API server's, or one of the CUE value,
the template or the JSON decoding, with its message. -/
inductive Error
  | api (e : ApiError)
  | value (message : String)
deriving DecidableEq

/-!
## The API server
-/

/-- The objects of each kind, and the failures of the next calls. -/
structure Server where
  serviceAccounts : AList (fun _ : NamespacedName => ServiceAccount)
  clusterRoleBindings : AList (fun _ : NamespacedName => ClusterRoleBinding)
  deployments : AList (fun _ : NamespacedName => Deployment)
  faults : List (Option ApiError)

/-- One kind of object: its map in the server. -/
structure Resource (α : Type) where
  objects : Server -> AList (fun _ : NamespacedName => α)
  setObjects : Server -> AList (fun _ : NamespacedName => α) -> Server

def serviceAccounts : Resource ServiceAccount :=
  ⟨Server.serviceAccounts, fun s a => { s with serviceAccounts := a }⟩

def clusterRoleBindings : Resource ClusterRoleBinding :=
  ⟨Server.clusterRoleBindings, fun s a => { s with clusterRoleBindings := a }⟩

def deployments : Resource Deployment :=
  ⟨Server.deployments, fun s a => { s with deployments := a }⟩

namespace Server

variable {α : Type}

/-- The failure of the next call, if the environment chose one. -/
def nextFault (s : Server) : Option ApiError × Server :=
  match s.faults with
  | [] => (none, s)
  | f :: rest => (f, { s with faults := rest })

/-- `Get`. -/
def get (s : Server) (r : Resource α) (key : NamespacedName) : Except ApiError α × Server :=
  match s.nextFault with
  | (some e, s) => (Except.error e, s)
  | (none, s) =>
      match (r.objects s).lookup key with
      | some o => (Except.ok o, s)
      | none => (Except.error (ApiError.notFound key.name), s)

/-- `Create`. -/
def create (s : Server) (r : Resource α) (key : NamespacedName) (o : α) :
    Except ApiError Unit × Server :=
  match s.nextFault with
  | (some e, s) => (Except.error e, s)
  | (none, s) =>
      if key ∈ r.objects s then (Except.error (ApiError.alreadyExists key.name), s)
      else (Except.ok (), r.setObjects s ((r.objects s).insert key o))

/-- `Update`. -/
def update (s : Server) (r : Resource α) (key : NamespacedName) (o : α) :
    Except ApiError Unit × Server :=
  match s.nextFault with
  | (some e, s) => (Except.error e, s)
  | (none, s) =>
      if key ∈ r.objects s then (Except.ok (), r.setObjects s ((r.objects s).insert key o))
      else (Except.error (ApiError.notFound key.name), s)

/-!
### Spec lemmas

A call consumes the environment's entry for it; `Get` changes nothing else, and `Create` and
`Update` either fail and change nothing else or write the object into their own map.
-/

@[simp] theorem nextFault_serviceAccounts (s : Server) :
    s.nextFault.2.serviceAccounts = s.serviceAccounts := by
  unfold nextFault
  split <;> rfl

@[simp] theorem nextFault_clusterRoleBindings (s : Server) :
    s.nextFault.2.clusterRoleBindings = s.clusterRoleBindings := by
  unfold nextFault
  split <;> rfl

@[simp] theorem nextFault_deployments (s : Server) :
    s.nextFault.2.deployments = s.deployments := by
  unfold nextFault
  split <;> rfl

@[simp] theorem get_snd (s : Server) (r : Resource α) (key : NamespacedName) :
    (s.get r key).2 = s.nextFault.2 := by
  unfold get
  generalize s.nextFault = p
  obtain ⟨f, s'⟩ := p
  cases f with
  | some e => rfl
  | none =>
      dsimp only
      split <;> rfl

/-- `Get` without a failure reads the map. -/
theorem get_of_nextFault {s : Server} (hf : s.nextFault.1 = none) (r : Resource α)
    (key : NamespacedName) :
    (s.get r key).1 =
      match (r.objects s.nextFault.2).lookup key with
      | some o => Except.ok o
      | none => Except.error (ApiError.notFound key.name) := by
  unfold get
  generalize hp : s.nextFault = p at hf
  obtain ⟨f, s'⟩ := p
  cases hf
  dsimp only
  split <;> rfl

/-- What a successful `Get` returns is the object in the map. -/
theorem get_eq_ok {s : Server} {r : Resource α} {key : NamespacedName} {o : α}
    (h : (s.get r key).1 = Except.ok o) : (r.objects s.nextFault.2).lookup key = some o := by
  unfold get at h
  generalize s.nextFault = p at h ⊢
  obtain ⟨f, s'⟩ := p
  cases f with
  | some e => cases h
  | none =>
      dsimp only at h ⊢
      split at h
      · rename_i o' ho
        cases h
        exact ho
      · cases h

/-- `Create` either fails and changes nothing else, or writes into its own map. -/
theorem create_cases (s : Server) (r : Resource α) (key : NamespacedName) (o : α) :
    (exists e, s.create r key o = (Except.error e, s.nextFault.2)) ∨
      s.create r key o =
        (Except.ok (), r.setObjects s.nextFault.2 ((r.objects s.nextFault.2).insert key o)) := by
  unfold create
  generalize s.nextFault = p
  obtain ⟨f, s'⟩ := p
  cases f with
  | some e => exact Or.inl ⟨e, rfl⟩
  | none =>
      dsimp only
      split
      · exact Or.inl ⟨_, rfl⟩
      · exact Or.inr rfl

/-- `Update` either fails and changes nothing else, or writes into its own map. -/
theorem update_cases (s : Server) (r : Resource α) (key : NamespacedName) (o : α) :
    (exists e, s.update r key o = (Except.error e, s.nextFault.2)) ∨
      s.update r key o =
        (Except.ok (), r.setObjects s.nextFault.2 ((r.objects s.nextFault.2).insert key o)) := by
  unfold update
  generalize s.nextFault = p
  obtain ⟨f, s'⟩ := p
  cases f with
  | some e => exact Or.inl ⟨e, rfl⟩
  | none =>
      dsimp only
      split
      · exact Or.inr rfl
      · exact Or.inl ⟨_, rfl⟩

end Server

/-!
## The worker value
-/

/-- A compiled CUE value, as far as the reconciler reads it: strings and structs of
fields; `other` is any other kind of value. -/
inductive CueValue
  | string (s : String)
  | struct (fields : List (String × CueValue))
  | other

/-- `LookupPath` along the selectors of a parsed path; `none` for a value that does not
exist. -/
def CueValue.lookupPath (v : CueValue) : List String -> Option CueValue
  | [] => some v
  | sel :: rest =>
      match v with
      | CueValue.struct fields =>
          match fields.lookup sel with
          | some w => w.lookupPath rest
          | none => none
      | _ => none

/-- `String()` of a looked-up value; the error names the path. -/
def CueValue.lookupString (v : CueValue) (path : List String) : Except Error String :=
  match v.lookupPath path with
  | some (CueValue.string s) => Except.ok s
  | _ => Except.error (Error.value (String.intercalate "." path))

/-!
## `createRoles`
-/

/-- `standardv1alpha1.GroupVersion.String()`. -/
def groupVersion : String := "standard.oam.dev/v1alpha1"

/-- `standardv1alpha1.TriggerServiceKind`. -/
def triggerServiceKind : String := "TriggerService"

/-- `utils.SetOwnerReference`: the one owner reference to the TriggerService. -/
def ownerReferences (ts : TriggerService) : List OwnerReference :=
  [{ apiVersion := groupVersion, kind := triggerServiceKind, name := ts.name, uid := ts.uid,
     blockOwnerDeletion := true }]

/-- The ClusterRoleBinding `kube-trigger`. -/
def roleBindingKey : NamespacedName := ⟨"", "kube-trigger"⟩

/-- The subject `createRoles` adds for the service account `saName`. -/
def serviceAccountSubject (ts : TriggerService) (saName : String) : Subject :=
  { kind := "ServiceAccount", apiGroup := "", name := saName, namespace_ := ts.namespace_ }

/-- The second half of `createRoles`: `Get` the binding and `Update` it with the subject
unless `slices.Contains` finds it there. -/
def addSubject (s : Server) (ts : TriggerService) (saName : String) : Option Error × Server :=
  match s.get clusterRoleBindings roleBindingKey with
  | (Except.error e, s) => (some (Error.api e), s)
  | (Except.ok role, s) =>
      if serviceAccountSubject ts saName ∈ role.subjects then (none, s)
      else
        match s.update clusterRoleBindings roleBindingKey
            { role with subjects := role.subjects ++ [serviceAccountSubject ts saName] } with
        | (Except.error e, s) => (some (Error.api e), s)
        | (Except.ok (), s) => (none, s)

/-- `createRoles`.  The `Get` of the service account returns from the function when it
succeeds (the `else { return err }` with `err` nil); a `NotFound` creates the account, and
any other error falls through to the binding. -/
def createRoles (s : Server) (ts : TriggerService) (v : CueValue) : Option Error × Server :=
  match v.lookupString ["parameter", "serviceAccount"] with
  | Except.error e => (some e, s)
  | Except.ok saName =>
      match s.get serviceAccounts ⟨ts.namespace_, saName⟩ with
      | (Except.ok _, s) => (none, s)
      | (Except.error e, s) =>
          if e.isNotFound then
            match s.create serviceAccounts ⟨ts.namespace_, saName⟩ ⟨ownerReferences ts⟩ with
            | (Except.error e, s) => (some (Error.api e), s)
            | (Except.ok (), s) => addSubject s ts saName
          else addSubject s ts saName

/-!
### What `createRoles` can end in

One lemma per function lists every outcome with the state it leaves; the results below read
them off.
-/

/-- The outcomes of `addSubject`: the binding's `Get` fails; the binding lists the subject
already; the `Update` with the subject fails, or it succeeds. -/
theorem addSubject_cases (s : Server) (ts : TriggerService) (saName : String) :
    (exists e, addSubject s ts saName = (some e, s.nextFault.2)) ∨
      (exists role, s.nextFault.2.clusterRoleBindings.lookup roleBindingKey = some role ∧
        serviceAccountSubject ts saName ∈ role.subjects ∧
        addSubject s ts saName = (none, s.nextFault.2)) ∨
      (exists role, s.nextFault.2.clusterRoleBindings.lookup roleBindingKey = some role ∧
        serviceAccountSubject ts saName ∉ role.subjects ∧
        ((exists e, addSubject s ts saName = (some e, s.nextFault.2.nextFault.2)) ∨
          addSubject s ts saName =
            (none, clusterRoleBindings.setObjects s.nextFault.2.nextFault.2
              (s.nextFault.2.nextFault.2.clusterRoleBindings.insert roleBindingKey
                { role with subjects := role.subjects ++ [serviceAccountSubject ts saName] })))) := by
  unfold addSubject
  have hsnd := Server.get_snd s clusterRoleBindings roleBindingKey
  have hok : forall o : ClusterRoleBinding,
      (s.get clusterRoleBindings roleBindingKey).1 = Except.ok o ->
      (clusterRoleBindings.objects s.nextFault.2).lookup roleBindingKey = some o :=
    fun _ h => Server.get_eq_ok h
  generalize s.get clusterRoleBindings roleBindingKey = g at hsnd hok
  obtain ⟨res, s1⟩ := g
  dsimp only at hsnd hok
  subst hsnd
  cases res with
  | error e => exact Or.inl ⟨Error.api e, rfl⟩
  | ok role =>
      have hrole : s.nextFault.2.clusterRoleBindings.lookup roleBindingKey = some role :=
        hok role rfl
      dsimp only
      by_cases hmem : serviceAccountSubject ts saName ∈ role.subjects
      · rw [if_pos hmem]
        exact Or.inr (Or.inl ⟨role, hrole, hmem, rfl⟩)
      · rw [if_neg hmem]
        refine Or.inr (Or.inr ⟨role, hrole, hmem, ?_⟩)
        -- the `Update` of the binding with the subject appended
        rcases Server.update_cases s.nextFault.2 clusterRoleBindings roleBindingKey
            { role with subjects := role.subjects ++ [serviceAccountSubject ts saName] } with
          ⟨e, hu⟩ | hu
        · rw [hu]
          exact Or.inl ⟨Error.api e, rfl⟩
        · rw [hu]
          exact Or.inr rfl

/-- The outcomes of `createRoles` once the value names the service account `saName`: the
account's `Get` succeeds and ends the function; a `NotFound` creates the account, and the
`Create` fails or the binding follows; any other error goes on to the binding directly. -/
theorem createRoles_cases {s : Server} {ts : TriggerService} {v : CueValue} {saName : String}
    (hv : v.lookupString ["parameter", "serviceAccount"] = Except.ok saName) :
    (exists a, s.nextFault.2.serviceAccounts.lookup ⟨ts.namespace_, saName⟩ = some a ∧
        createRoles s ts v = (none, s.nextFault.2)) ∨
      (exists e, (s.get serviceAccounts ⟨ts.namespace_, saName⟩).1 = Except.error e ∧
        e.isNotFound = true ∧
        ((exists e', createRoles s ts v = (some e', s.nextFault.2.nextFault.2)) ∨
          createRoles s ts v =
            addSubject (serviceAccounts.setObjects s.nextFault.2.nextFault.2
              (s.nextFault.2.nextFault.2.serviceAccounts.insert ⟨ts.namespace_, saName⟩
                ⟨ownerReferences ts⟩)) ts saName)) ∨
      (exists e, (s.get serviceAccounts ⟨ts.namespace_, saName⟩).1 = Except.error e ∧
        e.isNotFound = false ∧ createRoles s ts v = addSubject s.nextFault.2 ts saName) := by
  unfold createRoles
  rw [hv]
  dsimp only
  have hsnd := Server.get_snd s serviceAccounts ⟨ts.namespace_, saName⟩
  have hok : forall o : ServiceAccount,
      (s.get serviceAccounts ⟨ts.namespace_, saName⟩).1 = Except.ok o ->
      (serviceAccounts.objects s.nextFault.2).lookup ⟨ts.namespace_, saName⟩ = some o :=
    fun _ h => Server.get_eq_ok h
  generalize s.get serviceAccounts ⟨ts.namespace_, saName⟩ = g at hsnd hok
  obtain ⟨res, s1⟩ := g
  dsimp only at hsnd hok
  subst hsnd
  cases res with
  | ok a => exact Or.inl ⟨a, hok a rfl, rfl⟩
  | error e =>
      dsimp only
      cases hnf : e.isNotFound with
      | true =>
          rw [if_pos rfl]
          refine Or.inr (Or.inl ⟨e, rfl, hnf, ?_⟩)
          -- the `Create` of the account
          rcases Server.create_cases s.nextFault.2 serviceAccounts ⟨ts.namespace_, saName⟩
              ⟨ownerReferences ts⟩ with ⟨e', hc⟩ | hc
          · rw [hc]
            exact Or.inl ⟨Error.api e', rfl⟩
          · rw [hc]
            exact Or.inr rfl
      | false =>
          rw [if_neg Bool.false_ne_true]
          exact Or.inr (Or.inr ⟨e, rfl, hnf, rfl⟩)

/-!
### The binding after `createRoles`
-/

theorem addSubject_serviceAccounts (s : Server) (ts : TriggerService) (saName : String) :
    (addSubject s ts saName).2.serviceAccounts = s.serviceAccounts := by
  rcases addSubject_cases s ts saName with ⟨e, h⟩ | ⟨role, -, -, h⟩ | ⟨role, -, -, ⟨e, h⟩ | h⟩ <;>
    rw [h] <;> simp [clusterRoleBindings]

theorem addSubject_error_bindings {s : Server} {ts : TriggerService} {saName : String}
    {e : Error} (herr : (addSubject s ts saName).1 = some e) :
    (addSubject s ts saName).2.clusterRoleBindings = s.clusterRoleBindings := by
  rcases addSubject_cases s ts saName with ⟨e', h⟩ | ⟨role, -, -, h⟩ | ⟨role, -, -, ⟨e', h⟩ | h⟩
  · rw [h]
    simp
  · rw [h] at herr
    cases herr
  · rw [h]
    simp
  · rw [h] at herr
    cases herr

/-- When `addSubject` returns `nil`, the binding lists the subject. -/
theorem addSubject_none {s : Server} {ts : TriggerService} {saName : String}
    (hnone : (addSubject s ts saName).1 = none) :
    exists b, (addSubject s ts saName).2.clusterRoleBindings.lookup roleBindingKey = some b ∧
      serviceAccountSubject ts saName ∈ b.subjects := by
  rcases addSubject_cases s ts saName with ⟨e, h⟩ | ⟨role, hrole, hmem, h⟩ |
      ⟨role, -, -, ⟨e, h⟩ | h⟩
  · rw [h] at hnone
    cases hnone
  · rw [h]
    exact ⟨role, hrole, hmem⟩
  · rw [h] at hnone
    cases hnone
  · -- the `Update` wrote the binding with the subject appended
    rw [h]
    refine ⟨_, AList.lookup_insert _, ?_⟩
    exact List.mem_append_right _ (List.mem_singleton_self _)

/-- When `createRoles` returns an error, every binding is as it was. -/
theorem createRoles_error_bindings {s : Server} {ts : TriggerService} {v : CueValue} {e : Error}
    (herr : (createRoles s ts v).1 = some e) :
    (createRoles s ts v).2.clusterRoleBindings = s.clusterRoleBindings := by
  cases hv : v.lookupString ["parameter", "serviceAccount"] with
  | error e' =>
      unfold createRoles
      rw [hv]
  | ok saName =>
      rcases createRoles_cases hv with ⟨a, -, h⟩ | ⟨e', -, -, ⟨e'', h⟩ | h⟩ | ⟨e', -, -, h⟩
      · rw [h] at herr
        cases herr
      · rw [h]
        simp
      · rw [h] at herr ⊢
        rw [addSubject_error_bindings herr]
        simp [serviceAccounts]
      · rw [h] at herr ⊢
        rw [addSubject_error_bindings herr]
        simp

/-- When `createRoles` returns `nil`, either the service account's `Get` succeeded and
nothing else happened, or the binding lists the subject, and the account exists unless its
`Get` failed with an error other than `NotFound`. -/
theorem createRoles_none {s : Server} {ts : TriggerService} {v : CueValue} {saName : String}
    (hv : v.lookupString ["parameter", "serviceAccount"] = Except.ok saName)
    (hnone : (createRoles s ts v).1 = none) :
    (exists a, s.nextFault.2.serviceAccounts.lookup ⟨ts.namespace_, saName⟩ = some a ∧
        createRoles s ts v = (none, s.nextFault.2)) ∨
      ((exists b, (createRoles s ts v).2.clusterRoleBindings.lookup roleBindingKey = some b ∧
          serviceAccountSubject ts saName ∈ b.subjects) ∧
        (((createRoles s ts v).2.serviceAccounts.lookup ⟨ts.namespace_, saName⟩).isSome ∨
          exists e, (s.get serviceAccounts ⟨ts.namespace_, saName⟩).1 = Except.error e ∧
            e.isNotFound = false)) := by
  rcases createRoles_cases hv with hfound | ⟨e, -, -, ⟨e', h⟩ | h⟩ | ⟨e, hget, hnf, h⟩
  · exact Or.inl hfound
  · rw [h] at hnone
    cases hnone
  · -- the account was created, then the binding followed
    rw [h] at hnone ⊢
    refine Or.inr ⟨addSubject_none hnone, Or.inl ?_⟩
    rw [addSubject_serviceAccounts]
    simp [serviceAccounts, AList.lookup_insert]
  · rw [h] at hnone ⊢
    exact Or.inr ⟨addSubject_none hnone, Or.inr ⟨e, hget, hnf⟩⟩

/-- Whenever the service account exists and its `Get` does not fail, `createRoles` returns
`nil` after that one call, whatever the binding lists. -/
theorem createRoles_of_found {s : Server} {ts : TriggerService} {v : CueValue}
    {saName : String} (hv : v.lookupString ["parameter", "serviceAccount"] = Except.ok saName)
    (hf : s.nextFault.1 = none) (hsa : ⟨ts.namespace_, saName⟩ ∈ s.serviceAccounts) :
    createRoles s ts v = (none, s.nextFault.2) := by
  -- the `Get` finds the account
  obtain ⟨a, ha⟩ : exists a, s.nextFault.2.serviceAccounts.lookup ⟨ts.namespace_, saName⟩ = some a := by
    rw [Server.nextFault_serviceAccounts, ← Option.isSome_iff_exists, AList.lookup_isSome]
    exact hsa
  have hget : (s.get serviceAccounts ⟨ts.namespace_, saName⟩).1 = Except.ok a := by
    rw [Server.get_of_nextFault hf]
    simp only [serviceAccounts]
    rw [ha]
  rcases createRoles_cases hv with ⟨a', -, h⟩ | ⟨e, herr, -, -⟩ | ⟨e, herr, -, -⟩
  · exact h
  · rw [hget] at herr
    cases herr
  · rw [hget] at herr
    cases herr

/-!
## `createWorker`
-/

/-- The extra data the template is compiled with (`cuex.WithExtraData`): a map of strings,
or the raw JSON of the worker's `Properties`. -/
inductive ExtraData
  | strings (fields : List (String × String))
  | raw (json : Option String)

/-- What `createWorker` takes from its libraries: `LoadTemplate` of a trigger-worker definition
by name followed by the template's `Compile`, `CompileStringWithOptions`, and `json.Unmarshal`
of a value's JSON into a deployment. -/
structure Libraries where
  loadTemplate : String -> Except Error String
  compile : String -> List (String × ExtraData) -> Except Error CueValue
  decodeDeployment : CueValue -> Except Error Deployment

/-- The template `createWorker` loads: the worker's, unless there is no worker or its
`Template` is empty. -/
def templateName (ts : TriggerService) : String :=
  match ts.worker with
  | some w => if w.template ≠ "" then w.template else "default"
  | none => "default"

/-- The compile options: the TriggerService's name and namespace, and the worker's
`Properties` as `parameter` when there is a worker. -/
def compileOptions (ts : TriggerService) : List (String × ExtraData) :=
  ("triggerService", ExtraData.strings [("name", ts.name), ("namespace", ts.namespace_)]) ::
    match ts.worker with
    | some w => [("parameter", ExtraData.raw w.properties)]
    | none => []

/-- `LookupPath("deployment")`, `MarshalJSON`, which fails for a value that does not exist,
and `json.Unmarshal`. -/
def deploymentOf (lib : Libraries) (v : CueValue) : Except Error Deployment :=
  match v.lookupPath ["deployment"] with
  | some d => lib.decodeDeployment d
  | none => Except.error (Error.value "deployment")

/-- `createWorker`: compile the worker template, make sure of the roles, and create the
deployment the value describes, owned by the TriggerService. -/
def createWorker (s : Server) (ts : TriggerService) (lib : Libraries) : Option Error × Server :=
  match lib.loadTemplate (templateName ts) with
  | Except.error e => (some e, s)
  | Except.ok template =>
      match lib.compile template (compileOptions ts) with
      | Except.error e => (some e, s)
      | Except.ok v =>
          match createRoles s ts v with
          | (some e, s) => (some e, s)
          | (none, s) =>
              match deploymentOf lib v with
              | Except.error e => (some e, s)
              | Except.ok d =>
                  -- `utils.SetOwnerReference`, then `Create`
                  let d := { d with ownerReferences := ownerReferences ts }
                  match s.create deployments ⟨d.namespace_, d.name⟩ d with
                  | (Except.error e, s) => (some (Error.api e), s)
                  | (Except.ok (), s) => (none, s)

/-- The outcomes of `createWorker` once the template compiles to `v`: `createRoles` fails; or
it returns `nil` and the deployment cannot be read from the value, or its `Create` fails, or
the deployment is created. -/
theorem createWorker_cases {s : Server} {ts : TriggerService} {lib : Libraries}
    {template : String} {v : CueValue}
    (hload : lib.loadTemplate (templateName ts) = Except.ok template)
    (hcomp : lib.compile template (compileOptions ts) = Except.ok v) :
    (exists e, (createRoles s ts v).1 = some e ∧
        createWorker s ts lib = (some e, (createRoles s ts v).2)) ∨
      ((createRoles s ts v).1 = none ∧
        ((exists e, deploymentOf lib v = Except.error e ∧
            createWorker s ts lib = (some e, (createRoles s ts v).2)) ∨
          exists d, deploymentOf lib v = Except.ok d ∧
            createWorker s ts lib =
              (match (createRoles s ts v).2.create deployments ⟨d.namespace_, d.name⟩
                  { d with ownerReferences := ownerReferences ts } with
                | (Except.error e, s) => (some (Error.api e), s)
                | (Except.ok (), s) => (none, s)))) := by
  unfold createWorker
  rw [hload]
  dsimp only
  rw [hcomp]
  dsimp only
  generalize createRoles s ts v = r
  obtain ⟨res, s1⟩ := r
  cases res with
  | some e => exact Or.inl ⟨e, rfl, rfl⟩
  | none =>
      refine Or.inr ⟨rfl, ?_⟩
      dsimp only
      cases hd : deploymentOf lib v with
      | error e => exact Or.inl ⟨e, rfl, rfl⟩
      | ok d => exact Or.inr ⟨d, rfl, rfl⟩

/-- When `createWorker` returns `nil`, the template compiled, `createRoles` returned `nil`, and
the deployment the value describes is in the server, owned by the TriggerService. -/
theorem createWorker_none {s s' : Server} {ts : TriggerService} {lib : Libraries}
    (h : createWorker s ts lib = (none, s')) :
    exists template v d, lib.loadTemplate (templateName ts) = Except.ok template ∧
      lib.compile template (compileOptions ts) = Except.ok v ∧
      (createRoles s ts v).1 = none ∧ deploymentOf lib v = Except.ok d ∧
      s'.deployments.lookup ⟨d.namespace_, d.name⟩ =
        some { d with ownerReferences := ownerReferences ts } := by
  cases hload : lib.loadTemplate (templateName ts) with
  | error e =>
      unfold createWorker at h
      rw [hload] at h
      cases h
  | ok template =>
      cases hcomp : lib.compile template (compileOptions ts) with
      | error e =>
          unfold createWorker at h
          rw [hload] at h
          dsimp only at h
          rw [hcomp] at h
          cases h
      | ok v =>
          rcases createWorker_cases hload hcomp with ⟨e, -, hw⟩ | ⟨hnone, ⟨e, -, hw⟩ | ⟨d, hd, hw⟩⟩
          · rw [hw] at h
            cases h
          · rw [hw] at h
            cases h
          · refine ⟨template, v, d, rfl, hcomp, hnone, hd, ?_⟩
            -- the `Create` of the owned deployment succeeded
            rw [hw] at h
            rcases Server.create_cases (createRoles s ts v).2 deployments ⟨d.namespace_, d.name⟩
                { d with ownerReferences := ownerReferences ts } with ⟨e, hc⟩ | hc
            · rw [hc] at h
              cases h
            · rw [hc] at h
              cases h
              simp [deployments, AList.lookup_insert]

/-- When the service account is there and its `Get` does not fail, `createWorker` never
touches the ClusterRoleBinding: whatever the binding lists, the worker is created without the
account's subject being added. -/
theorem createWorker_bindings_of_found {s : Server} {ts : TriggerService} {lib : Libraries}
    {template : String} {v : CueValue} {saName : String}
    (hload : lib.loadTemplate (templateName ts) = Except.ok template)
    (hcomp : lib.compile template (compileOptions ts) = Except.ok v)
    (hv : v.lookupString ["parameter", "serviceAccount"] = Except.ok saName)
    (hf : s.nextFault.1 = none) (hsa : ⟨ts.namespace_, saName⟩ ∈ s.serviceAccounts) :
    (createWorker s ts lib).2.clusterRoleBindings = s.clusterRoleBindings := by
  have hroles := createRoles_of_found hv hf hsa
  rcases createWorker_cases hload hcomp with ⟨e, herr, -⟩ | ⟨-, ⟨e, -, hw⟩ | ⟨d, -, hw⟩⟩
  · rw [hroles] at herr
    cases herr
  · rw [hw, hroles]
    simp
  · -- the `Create` writes only deployments
    rw [hw, hroles]
    rcases Server.create_cases s.nextFault.2 deployments ⟨d.namespace_, d.name⟩
        { d with ownerReferences := ownerReferences ts } with ⟨e, hc⟩ | hc
    · rw [hc]
      simp
    · rw [hc]
      simp [deployments]

/-!
### Two runs that end in `nil` without the binding

The worker's value names the account `kube-trigger-worker`, and the TriggerService `demo`
lives in `default`.  In `accountExists` the account is there and the binding lists nobody;
in `accountGetFails` the account is missing and the first call fails with an error that is
not `NotFound`.
-/

def workerValue : CueValue :=
  CueValue.struct
    [("parameter", CueValue.struct [("serviceAccount", CueValue.string "kube-trigger-worker")])]

def demoService : TriggerService :=
  { name := "demo", namespace_ := "default", uid := "demo-uid", worker := none }

def accountExists : Server :=
  { serviceAccounts := (∅ : AList (fun _ : NamespacedName => ServiceAccount)).insert
      ⟨"default", "kube-trigger-worker"⟩ ⟨[]⟩
    clusterRoleBindings := (∅ : AList (fun _ : NamespacedName => ClusterRoleBinding)).insert
      roleBindingKey ⟨[]⟩
    deployments := ∅
    faults := [] }

def accountGetFails : Server :=
  { serviceAccounts := ∅
    clusterRoleBindings := (∅ : AList (fun _ : NamespacedName => ClusterRoleBinding)).insert
      roleBindingKey ⟨[]⟩
    deployments := ∅
    faults := [some (ApiError.other "etcdserver: request timed out")] }

theorem roles_incomplete_on_nil :
    (createRoles accountExists demoService workerValue).1 = none ∧
      (createRoles accountExists demoService workerValue).2.clusterRoleBindings.lookup
        roleBindingKey = some ⟨[]⟩ ∧
      (createRoles accountGetFails demoService workerValue).1 = none ∧
      (createRoles accountGetFails demoService workerValue).2.serviceAccounts.lookup
        ⟨"default", "kube-trigger-worker"⟩ = none := by
  decide +kernel

end Controllers
end KubeTrigger
