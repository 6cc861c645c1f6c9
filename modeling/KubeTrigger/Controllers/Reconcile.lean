import KubeTrigger.Foundation.Run
import KubeTrigger.Controllers.TriggerService

/-!
# The TriggerService reconciler: `Reconcile`

`Reconcile` (controllers/triggerservice/triggerservice_controller.go) reads the
TriggerService of the request.  A TriggerService being deleted without the reconciler's
finalizer gets it, and the reconcile ends there.  Otherwise `handleTriggerConfig` writes the
JSON of the spec into the ConfigMap of the TriggerService's name, under the key
`<name>.json`: it creates the ConfigMap, or sets the key in the one there and then deletes
the TriggerService's pods (`restartPod`), so that they restart with the new configuration.
Last, unless some deployment carries the label `trigger.oam.dev/name` with the
TriggerService's name, `createWorker` makes the worker.

When the `Get` of the TriggerService finds none, `Reconcile` goes on with the zero value, a
TriggerService with an empty name.  Setting the key in a ConfigMap without data assigns into
a nil map, which panics.  No code removes the finalizer.

The cluster adds ConfigMaps, pods and TriggerServices to the server of the worker's objects,
and every call takes its failure, if any, from the same list.  `Create` of an object without
a name is refused, as the API server refuses it.  Which deployments carry the label is read
by a function `labelOf`, the label's value on a deployment as its template made it.
-/

namespace KubeTrigger
namespace Controllers

/-- `triggerNameLabel`. -/
def triggerNameLabel : String := "trigger.oam.dev/name"

/-- `triggerServiceFinalizer`. -/
def triggerServiceFinalizer : String := "trigger.oam.dev/trigger-service-finalizer"

/-- A TriggerService object: what the reconciler reads of it, whether its deletion
timestamp is set, its finalizers, and `json.Marshal` of its spec. -/
structure TriggerServiceObject where
  service : TriggerService
  deleting : Bool
  finalizers : List String
  specJson : Except String String

/-- The zero `TriggerService`, whose spec has no worker and nil triggers. -/
def TriggerServiceObject.zero : TriggerServiceObject :=
  { service := { name := "", namespace_ := "", uid := "", worker := none }, deleting := false,
    finalizers := [], specJson := Except.ok "\x7b\"triggers\":null\x7d" }

/-- `corev1.ConfigMap`: its owner references and `Data`, `none` for a nil map. -/
structure ConfigMap where
  ownerReferences : List OwnerReference
  data : Option (AList (fun _ : String => String))

/-- `corev1.Pod`: its labels. -/
structure Pod where
  labels : List (String × String)

/-- The objects the reconciler reads and writes: those of the worker, with the failures of
the next calls, and the TriggerServices, ConfigMaps and pods. -/
structure Cluster where
  server : Server
  triggerServices : AList (fun _ : NamespacedName => TriggerServiceObject)
  configMaps : AList (fun _ : NamespacedName => ConfigMap)
  pods : AList (fun _ : NamespacedName => Pod)

/-- One kind of object of the cluster outside the worker's server: its map. -/
structure Kind (α : Type) where
  objects : Cluster -> AList (fun _ : NamespacedName => α)
  setObjects : Cluster -> AList (fun _ : NamespacedName => α) -> Cluster

def triggerServices : Kind TriggerServiceObject :=
  ⟨Cluster.triggerServices, fun c a => { c with triggerServices := a }⟩

def configMaps : Kind ConfigMap :=
  ⟨Cluster.configMaps, fun c a => { c with configMaps := a }⟩

def pods : Kind Pod :=
  ⟨Cluster.pods, fun c a => { c with pods := a }⟩

/-- What the API server answers a `Create` of an object without a name. -/
def nameRequired : ApiError :=
  ApiError.other "metadata.name: Required value: name or generateName is required"

namespace Cluster

variable {α : Type}

/-- The failure of the next call, if the environment chose one. -/
def nextFault (c : Cluster) : Option ApiError × Cluster :=
  (c.server.nextFault.1, { c with server := c.server.nextFault.2 })

/-- `Get`. -/
def get (c : Cluster) (k : Kind α) (key : NamespacedName) : Except ApiError α × Cluster :=
  match c.nextFault with
  | (some e, c) => (Except.error e, c)
  | (none, c) =>
      match (k.objects c).lookup key with
      | some o => (Except.ok o, c)
      | none => (Except.error (ApiError.notFound key.name), c)

/-- `Create`. -/
def create (c : Cluster) (k : Kind α) (key : NamespacedName) (o : α) :
    Except ApiError Unit × Cluster :=
  match c.nextFault with
  | (some e, c) => (Except.error e, c)
  | (none, c) =>
      if key.name = "" then (Except.error nameRequired, c)
      else if key ∈ k.objects c then (Except.error (ApiError.alreadyExists key.name), c)
      else (Except.ok (), k.setObjects c ((k.objects c).insert key o))

/-- `Update`. -/
def update (c : Cluster) (k : Kind α) (key : NamespacedName) (o : α) :
    Except ApiError Unit × Cluster :=
  match c.nextFault with
  | (some e, c) => (Except.error e, c)
  | (none, c) =>
      if key ∈ k.objects c then (Except.ok (), k.setObjects c ((k.objects c).insert key o))
      else (Except.error (ApiError.notFound key.name), c)

/-- `Delete`. -/
def delete (c : Cluster) (k : Kind α) (key : NamespacedName) : Except ApiError Unit × Cluster :=
  match c.nextFault with
  | (some e, c) => (Except.error e, c)
  | (none, c) =>
      if key ∈ k.objects c then (Except.ok (), k.setObjects c ((k.objects c).erase key))
      else (Except.error (ApiError.notFound key.name), c)

/-- A pod `List`ed with `InNamespace(namespace_)`, every namespace for `""`, and
`MatchingLabels` of one label. -/
def Selects (namespace_ : String) (label : String × String) (key : NamespacedName)
    (pod : Pod) : Prop :=
  (namespace_ = "" ∨ key.namespace_ = namespace_) ∧ pod.labels.lookup label.1 = some label.2

instance (namespace_ : String) (label : String × String) (key : NamespacedName) (pod : Pod) :
    Decidable (Selects namespace_ label key pod) :=
  inferInstanceAs (Decidable (_ ∧ _))

/-- `List` of the pods a namespace and a label select: their names. -/
def listPods (c : Cluster) (namespace_ : String) (label : String × String) :
    Except ApiError (List NamespacedName) × Cluster :=
  match c.nextFault with
  | (some e, c) => (Except.error e, c)
  | (none, c) =>
      (Except.ok ((c.pods.entries.filter (fun p => decide (Selects namespace_ label p.1 p.2))).map
        Sigma.fst), c)

/-- `List` of the deployments, in every namespace, whose label `trigger.oam.dev/name` is
`name`. -/
def listDeployments (c : Cluster) (labelOf : Deployment -> Option String) (name : String) :
    Except ApiError (List Deployment) × Cluster :=
  match c.nextFault with
  | (some e, c) => (Except.error e, c)
  | (none, c) =>
      (Except.ok ((c.server.deployments.entries.map Sigma.snd).filter
        (fun d => decide (labelOf d = some name))), c)

/-!
### Spec lemmas

As for the server: a call consumes the environment's entry for it; `Get` and `List` change
nothing else, and `Create`, `Update` and `Delete` either fail and change nothing else or
write their own map.
-/

@[simp] theorem nextFault_server (c : Cluster) : c.nextFault.2.server = c.server.nextFault.2 :=
  rfl

@[simp] theorem nextFault_triggerServices (c : Cluster) :
    c.nextFault.2.triggerServices = c.triggerServices := rfl

@[simp] theorem nextFault_configMaps (c : Cluster) : c.nextFault.2.configMaps = c.configMaps :=
  rfl

@[simp] theorem nextFault_pods (c : Cluster) : c.nextFault.2.pods = c.pods := rfl

/-- Without faults, a call sees the cluster as it is. -/
theorem nextFault_of_nil {c : Cluster} (h : c.server.faults = []) : c.nextFault = (none, c) := by
  unfold nextFault Server.nextFault
  rw [h]

/-- `Get` either fails and changes nothing else, or returns the object in the map. -/
theorem get_cases (c : Cluster) (k : Kind α) (key : NamespacedName) :
    (exists e, c.get k key = (Except.error e, c.nextFault.2)) ∨
      exists o, (k.objects c.nextFault.2).lookup key = some o ∧
        c.get k key = (Except.ok o, c.nextFault.2) := by
  unfold get
  generalize c.nextFault = p
  obtain ⟨f, c'⟩ := p
  cases f with
  | some e => exact Or.inl ⟨e, rfl⟩
  | none =>
      dsimp only
      cases ho : (k.objects c').lookup key with
      | none => exact Or.inl ⟨_, rfl⟩
      | some o => exact Or.inr ⟨o, rfl, rfl⟩

/-- `Create` either fails and changes nothing else, or writes an object with a name into its
own map. -/
theorem create_cases (c : Cluster) (k : Kind α) (key : NamespacedName) (o : α) :
    (exists e, c.create k key o = (Except.error e, c.nextFault.2)) ∨
      key.name ≠ "" ∧ c.create k key o =
        (Except.ok (), k.setObjects c.nextFault.2 ((k.objects c.nextFault.2).insert key o)) := by
  unfold create
  generalize c.nextFault = p
  obtain ⟨f, c'⟩ := p
  cases f with
  | some e => exact Or.inl ⟨e, rfl⟩
  | none =>
      dsimp only
      split
      · exact Or.inl ⟨_, rfl⟩
      · rename_i hname
        split
        · exact Or.inl ⟨_, rfl⟩
        · exact Or.inr ⟨hname, rfl⟩

/-- `Update` either fails and changes nothing else, or overwrites an object of its own map. -/
theorem update_cases (c : Cluster) (k : Kind α) (key : NamespacedName) (o : α) :
    (exists e, c.update k key o = (Except.error e, c.nextFault.2)) ∨
      key ∈ k.objects c.nextFault.2 ∧ c.update k key o =
        (Except.ok (), k.setObjects c.nextFault.2 ((k.objects c.nextFault.2).insert key o)) := by
  unfold update
  generalize c.nextFault = p
  obtain ⟨f, c'⟩ := p
  cases f with
  | some e => exact Or.inl ⟨e, rfl⟩
  | none =>
      dsimp only
      split
      · rename_i hmem
        exact Or.inr ⟨hmem, rfl⟩
      · exact Or.inl ⟨_, rfl⟩

/-- `Delete` either fails and changes nothing else, or erases from its own map. -/
theorem delete_cases (c : Cluster) (k : Kind α) (key : NamespacedName) :
    (exists e, c.delete k key = (Except.error e, c.nextFault.2)) ∨
      c.delete k key =
        (Except.ok (), k.setObjects c.nextFault.2 ((k.objects c.nextFault.2).erase key)) := by
  unfold delete
  generalize c.nextFault = p
  obtain ⟨f, c'⟩ := p
  cases f with
  | some e => exact Or.inl ⟨e, rfl⟩
  | none =>
      dsimp only
      split
      · exact Or.inr rfl
      · exact Or.inl ⟨_, rfl⟩

/-- `List` of pods either fails, or names the pods the namespace and the label select. -/
theorem listPods_cases (c : Cluster) (namespace_ : String) (label : String × String) :
    (exists e, c.listPods namespace_ label = (Except.error e, c.nextFault.2)) ∨
      c.listPods namespace_ label =
        (Except.ok ((c.pods.entries.filter
          (fun p => decide (Selects namespace_ label p.1 p.2))).map Sigma.fst), c.nextFault.2) := by
  unfold listPods
  generalize hp : c.nextFault = p
  obtain ⟨f, c'⟩ := p
  have hpods : c'.pods = c.pods := by
    rw [← nextFault_pods c, hp]
  cases f with
  | some e => exact Or.inl ⟨e, rfl⟩
  | none =>
      dsimp only
      rw [hpods]
      exact Or.inr rfl

/-- `List` of deployments either fails, or returns those of the server with the label. -/
theorem listDeployments_cases (c : Cluster) (labelOf : Deployment -> Option String)
    (name : String) :
    (exists e, c.listDeployments labelOf name = (Except.error e, c.nextFault.2)) ∨
      c.listDeployments labelOf name =
        (Except.ok ((c.nextFault.2.server.deployments.entries.map Sigma.snd).filter
          (fun d => decide (labelOf d = some name))), c.nextFault.2) := by
  unfold listDeployments
  generalize c.nextFault = p
  obtain ⟨f, c'⟩ := p
  cases f with
  | some e => exact Or.inl ⟨e, rfl⟩
  | none => exact Or.inr rfl

end Cluster

/-- An error `Reconcile` returns: one returned as it is, or one wrapped with a message
(`errors.Wrapf`, or `fmt.Errorf` with `%w`), which reads `message: cause`. -/
inductive ReconcileError
  | error (e : Error)
  | wrapped (message : String) (cause : Error)

/-- How a call of the reconciler ends: it returns `nil`, it returns an error, or it panics. -/
inductive Outcome
  | done
  | failed (e : ReconcileError)
  | panicked (message : String)

/-- The `Delete` of each pod `restartPod` listed, until one fails. -/
def deletePods (c : Cluster) : List NamespacedName -> Outcome × Cluster
  | [] => (Outcome.done, c)
  | pod :: rest =>
      match c.delete pods pod with
      | (Except.error e, c) =>
          (Outcome.failed (ReconcileError.wrapped
            ("cannot delete pod: " ++ pod.namespace_ ++ "/" ++ pod.name) (Error.api e)), c)
      | (Except.ok (), c) => deletePods c rest

/-- `restartPod`: delete the pods in the TriggerService's namespace that carry its name in
the label `trigger.oam.dev/name`. -/
def restartPod (c : Cluster) (ts : TriggerService) : Outcome × Cluster :=
  match c.listPods ts.namespace_ (triggerNameLabel, ts.name) with
  | (Except.error e, c) =>
      (Outcome.failed (ReconcileError.wrapped "failed to list pods" (Error.api e)), c)
  | (Except.ok items, c) => deletePods c items

/-- The name of the TriggerService's ConfigMap: its own. -/
def configMapKey (ts : TriggerService) : NamespacedName := ⟨ts.namespace_, ts.name⟩

/-- The key of the spec in the ConfigMap: `<name>.json`. -/
def configKey (ts : TriggerService) : String := ts.name ++ ".json"

/-- The ConfigMap `handleTriggerConfig` creates: the one key, owned by the TriggerService. -/
def newConfigMap (ts : TriggerService) (jsonByte : String) : ConfigMap :=
  { ownerReferences := ownerReferences ts, data := some (AList.singleton (configKey ts) jsonByte) }

/-- `handleTriggerConfig`: write the JSON of the spec into the TriggerService's ConfigMap. -/
def handleTriggerConfig (c : Cluster) (ts : TriggerServiceObject) : Outcome × Cluster :=
  match ts.specJson with
  | Except.error err =>
      (Outcome.failed (ReconcileError.wrapped
        ("failed to marshal TriggerService " ++ ts.service.name) (Error.value err)), c)
  | Except.ok jsonByte =>
      match c.get configMaps (configMapKey ts.service) with
      | (Except.error e, c) =>
          if e.isNotFound then
            match c.create configMaps (configMapKey ts.service) (newConfigMap ts.service jsonByte) with
            | (Except.error e, c) => (Outcome.failed (ReconcileError.error (Error.api e)), c)
            | (Except.ok (), c) => (Outcome.done, c)
          else
            (Outcome.failed (ReconcileError.wrapped "failed to get TriggerService ConfigMap"
              (Error.api e)), c)
      | (Except.ok cm, c) =>
          match cm.data with
          -- `cm.Data[key] = string(jsonByte)` on a nil map
          | none => (Outcome.panicked "assignment to entry in nil map", c)
          | some data =>
              match c.update configMaps (configMapKey ts.service)
                  { cm with data := some (data.insert (configKey ts.service) jsonByte) } with
              | (Except.error e, c) => (Outcome.failed (ReconcileError.error (Error.api e)), c)
              | (Except.ok (), c) => restartPod c ts.service

/-- The end of `Reconcile`: `List` the deployments with the label, and `createWorker` when
there is none. -/
def ensureWorker (c : Cluster) (lib : Libraries) (labelOf : Deployment -> Option String)
    (ts : TriggerService) : Outcome × Cluster :=
  match c.listDeployments labelOf ts.name with
  | (Except.error e, c) => (Outcome.failed (ReconcileError.error (Error.api e)), c)
  | (Except.ok [], c) =>
      match createWorker c.server ts lib with
      | (some e, s) => (Outcome.failed (ReconcileError.error e), { c with server := s })
      | (none, s) => (Outcome.done, { c with server := s })
  | (Except.ok _, c) => (Outcome.done, c)

/-- `Reconcile` once the TriggerService is read. -/
def reconcileObject (c : Cluster) (lib : Libraries) (labelOf : Deployment -> Option String)
    (ts : TriggerServiceObject) : Outcome × Cluster :=
  if ts.deleting = true ∧ triggerServiceFinalizer ∉ ts.finalizers then
    -- `meta.AddFinalizer` and `Update`
    match c.update triggerServices ⟨ts.service.namespace_, ts.service.name⟩
        { ts with finalizers := ts.finalizers ++ [triggerServiceFinalizer] } with
    | (Except.error e, c) => (Outcome.failed (ReconcileError.error (Error.api e)), c)
    | (Except.ok (), c) => (Outcome.done, c)
  else
    match handleTriggerConfig c ts with
    | (Outcome.done, c) => ensureWorker c lib labelOf ts.service
    | r => r

/-- `Reconcile` of the request for the TriggerService `req`. -/
def reconcile (c : Cluster) (lib : Libraries) (labelOf : Deployment -> Option String)
    (req : NamespacedName) : Outcome × Cluster :=
  match c.get triggerServices req with
  | (Except.error e, c) =>
      if e.isNotFound then reconcileObject c lib labelOf TriggerServiceObject.zero
      else (Outcome.failed (ReconcileError.error (Error.api e)), c)
  | (Except.ok ts, c) => reconcileObject c lib labelOf ts

/-- The TriggerService's ConfigMap holds `jsonByte` under `<name>.json`. -/
def ConfigStored (c : Cluster) (ts : TriggerService) (jsonByte : String) : Prop :=
  exists cm data, c.configMaps.lookup (configMapKey ts) = some cm ∧ cm.data = some data ∧
    data.lookup (configKey ts) = some jsonByte

/-- Some deployment is the TriggerService's worker: it carries the label with its name, or it
is owned by it. -/
def HasWorker (c : Cluster) (labelOf : Deployment -> Option String) (ts : TriggerService) :
    Prop :=
  exists key d, c.server.deployments.lookup key = some d ∧
    (labelOf d = some ts.name ∨ d.ownerReferences = ownerReferences ts)

theorem ConfigStored.of_configMaps {c c' : Cluster} {ts : TriggerService} {jsonByte : String}
    (h : c'.configMaps = c.configMaps) (hs : ConfigStored c ts jsonByte) :
    ConfigStored c' ts jsonByte := by
  unfold ConfigStored
  rw [h]
  exact hs

/-- A deployment `List` returns with the label is a worker. -/
theorem hasWorker_of_mem_listed {c : Cluster} {labelOf : Deployment -> Option String}
    {ts : TriggerService} {d : Deployment}
    (hd : d ∈ (c.server.deployments.entries.map Sigma.snd).filter
      (fun d => decide (labelOf d = some ts.name))) :
    HasWorker c labelOf ts := by
  obtain ⟨hmem, hlabel⟩ := List.mem_filter.mp hd
  obtain ⟨⟨key, d'⟩, hentry, rfl⟩ := List.mem_map.mp hmem
  exact ⟨key, d', AList.mem_lookup_iff.mpr hentry, Or.inl (by simpa using hlabel)⟩

/-!
## What the calls leave behind
-/

/-- `deletePods` writes only pods, and only removes them. -/
theorem deletePods_frame (c : Cluster) (items : List NamespacedName) :
    (deletePods c items).2.configMaps = c.configMaps ∧
      (deletePods c items).2.triggerServices = c.triggerServices ∧
      (deletePods c items).2.server.deployments = c.server.deployments ∧
      ∀ key, key ∈ (deletePods c items).2.pods -> key ∈ c.pods := by
  induction items generalizing c with
  | nil => exact ⟨rfl, rfl, rfl, fun _ h => h⟩
  | cons pod rest ih =>
      rcases Cluster.delete_cases c pods pod with ⟨e, hd⟩ | hd
      · simp only [deletePods, hd]
        exact ⟨rfl, rfl, by simp, fun _ h => h⟩
      · simp only [deletePods, hd]
        obtain ⟨h1, h2, h3, h4⟩ := ih (pods.setObjects c.nextFault.2 (c.pods.erase pod))
        refine ⟨h1, h2, by simpa [pods] using h3, fun key hk => ?_⟩
        have hmem := h4 key hk
        simp only [pods, AList.mem_erase] at hmem
        exact hmem.2

/-- When `deletePods` returns `nil`, none of the pods it was given is left. -/
theorem deletePods_done {c : Cluster} {items : List NamespacedName}
    (h : (deletePods c items).1 = Outcome.done) :
    ∀ key ∈ items, key ∉ (deletePods c items).2.pods := by
  induction items generalizing c with
  | nil =>
      intro key hk
      cases hk
  | cons pod rest ih =>
      rcases Cluster.delete_cases c pods pod with ⟨e, hd⟩ | hd
      · simp [deletePods, hd] at h
      · simp only [deletePods, hd] at h ⊢
        intro key hk
        rcases List.mem_cons.mp hk with rfl | hk
        · -- erased here, and later deletes only remove
          intro hmem
          have hkey := (deletePods_frame _ rest).2.2.2 _ hmem
          simp [pods] at hkey
        · exact ih h key hk

@[simp] theorem deletePods_triggerServices (c : Cluster) (items : List NamespacedName) :
    (deletePods c items).2.triggerServices = c.triggerServices :=
  (deletePods_frame c items).2.1

@[simp] theorem deletePods_configMaps (c : Cluster) (items : List NamespacedName) :
    (deletePods c items).2.configMaps = c.configMaps :=
  (deletePods_frame c items).1

@[simp] theorem deletePods_deployments (c : Cluster) (items : List NamespacedName) :
    (deletePods c items).2.server.deployments = c.server.deployments :=
  (deletePods_frame c items).2.2.1

/-- `restartPod` writes only pods. -/
theorem restartPod_frame (c : Cluster) (ts : TriggerService) :
    (restartPod c ts).2.configMaps = c.configMaps ∧
      (restartPod c ts).2.triggerServices = c.triggerServices ∧
      (restartPod c ts).2.server.deployments = c.server.deployments := by
  unfold restartPod
  rcases Cluster.listPods_cases c ts.namespace_ (triggerNameLabel, ts.name) with ⟨e, hl⟩ | hl
  · rw [hl]
    simp
  · rw [hl]
    simp

@[simp] theorem restartPod_triggerServices (c : Cluster) (ts : TriggerService) :
    (restartPod c ts).2.triggerServices = c.triggerServices :=
  (restartPod_frame c ts).2.1

@[simp] theorem restartPod_configMaps (c : Cluster) (ts : TriggerService) :
    (restartPod c ts).2.configMaps = c.configMaps :=
  (restartPod_frame c ts).1

@[simp] theorem restartPod_deployments (c : Cluster) (ts : TriggerService) :
    (restartPod c ts).2.server.deployments = c.server.deployments :=
  (restartPod_frame c ts).2.2

/-- When `restartPod` returns `nil`, every pod of the TriggerService's namespace that carries
its name in the label `trigger.oam.dev/name` is gone. -/
theorem restartPod_done {c : Cluster} {ts : TriggerService}
    (h : (restartPod c ts).1 = Outcome.done) {key : NamespacedName} {pod : Pod}
    (hpod : c.pods.lookup key = some pod)
    (hsel : Cluster.Selects ts.namespace_ (triggerNameLabel, ts.name) key pod) :
    key ∉ (restartPod c ts).2.pods := by
  unfold restartPod at h ⊢
  rcases Cluster.listPods_cases c ts.namespace_ (triggerNameLabel, ts.name) with ⟨e, hl⟩ | hl
  · rw [hl] at h
    cases h
  · rw [hl] at h ⊢
    apply deletePods_done h
    -- the listed names are those of the selected pods
    apply List.mem_map.mpr
    refine ⟨⟨key, pod⟩, ?_, rfl⟩
    exact List.mem_filter.mpr ⟨AList.mem_lookup_iff.mp hpod, by simpa using hsel⟩

/-- `handleTriggerConfig` writes no TriggerService and no deployment, and at most sets the
TriggerService's ConfigMap: the one there, or a new one with a name. -/
theorem handleTriggerConfig_frame (c : Cluster) (ts : TriggerServiceObject) :
    (handleTriggerConfig c ts).2.triggerServices = c.triggerServices ∧
      (handleTriggerConfig c ts).2.server.deployments = c.server.deployments ∧
      ((handleTriggerConfig c ts).2.configMaps = c.configMaps ∨
        exists cm, (handleTriggerConfig c ts).2.configMaps =
            c.configMaps.insert (configMapKey ts.service) cm ∧
          (configMapKey ts.service ∈ c.configMaps ∨ ts.service.name ≠ "")) := by
  unfold handleTriggerConfig
  cases ts.specJson with
  | error err => exact ⟨rfl, rfl, Or.inl rfl⟩
  | ok jsonByte =>
      dsimp only
      rcases Cluster.get_cases c configMaps (configMapKey ts.service) with ⟨e, hg⟩ | ⟨cm, -, hg⟩
      · rw [hg]
        dsimp only
        split
        · rcases Cluster.create_cases c.nextFault.2 configMaps (configMapKey ts.service)
            (newConfigMap ts.service jsonByte) with ⟨e', hc⟩ | ⟨hname, hc⟩
          · rw [hc]
            simp
          · -- the new ConfigMap, refused without a name
            rw [hc]
            refine ⟨rfl, by simp [configMaps],
              Or.inr ⟨newConfigMap ts.service jsonByte, by simp [configMaps], Or.inr hname⟩⟩
        · simp
      · rw [hg]
        dsimp only
        cases cm.data with
        | none => simp
        | some data =>
            dsimp only
            rcases Cluster.update_cases c.nextFault.2 configMaps (configMapKey ts.service)
              { cm with data := some (data.insert (configKey ts.service) jsonByte) }
              with ⟨e', hu⟩ | ⟨hmem, hu⟩
            · rw [hu]
              simp
            · -- the ConfigMap there, overwritten before `restartPod`
              rw [hu]
              refine ⟨by simp [configMaps], by simp [configMaps],
                Or.inr ⟨{ cm with data := some (data.insert (configKey ts.service) jsonByte) },
                  by simp [configMaps], Or.inl (by simpa [configMaps] using hmem)⟩⟩

/-- When `handleTriggerConfig` returns `nil`, the TriggerService's ConfigMap holds the JSON of
its spec under `<name>.json`. -/
theorem handleTriggerConfig_done {c : Cluster} {ts : TriggerServiceObject} {jsonByte : String}
    (hjson : ts.specJson = Except.ok jsonByte) (h : (handleTriggerConfig c ts).1 = Outcome.done) :
    ConfigStored (handleTriggerConfig c ts).2 ts.service jsonByte := by
  unfold ConfigStored
  unfold handleTriggerConfig at h ⊢
  rw [hjson] at h ⊢
  dsimp only at h ⊢
  rcases Cluster.get_cases c configMaps (configMapKey ts.service) with ⟨e, hg⟩ | ⟨cm, -, hg⟩
  · rw [hg] at h ⊢
    dsimp only at h ⊢
    by_cases hnf : e.isNotFound = true
    · -- no ConfigMap: it is created with the one key
      simp only [hnf, if_true] at h ⊢
      rcases Cluster.create_cases c.nextFault.2 configMaps (configMapKey ts.service)
        (newConfigMap ts.service jsonByte) with ⟨e', hc⟩ | ⟨-, hc⟩
      · rw [hc] at h
        cases h
      · rw [hc]
        refine ⟨newConfigMap ts.service jsonByte, AList.singleton (configKey ts.service) jsonByte,
          ?_, rfl, ?_⟩
        · simp [configMaps, AList.lookup_insert]
        · rw [← AList.insert_empty, AList.lookup_insert]
    · simp [hnf] at h
  · rw [hg] at h ⊢
    dsimp only at h ⊢
    cases hd : cm.data with
    | none =>
        rw [hd] at h
        cases h
    | some data =>
        -- the key is set in the ConfigMap there, and `restartPod` touches no ConfigMap
        rw [hd] at h
        dsimp only at h ⊢
        rcases Cluster.update_cases c.nextFault.2 configMaps (configMapKey ts.service)
          { cm with data := some (data.insert (configKey ts.service) jsonByte) }
          with ⟨e', hu⟩ | ⟨-, hu⟩
        · rw [hu] at h
          cases h
        · rw [hu]
          refine ⟨{ cm with data := some (data.insert (configKey ts.service) jsonByte) },
            data.insert (configKey ts.service) jsonByte, ?_, rfl, ?_⟩
          · simp [configMaps, AList.lookup_insert]
          · simp

/-- The end of `Reconcile` writes only the server. -/
theorem ensureWorker_frame (c : Cluster) (lib : Libraries)
    (labelOf : Deployment -> Option String) (ts : TriggerService) :
    (ensureWorker c lib labelOf ts).2.triggerServices = c.triggerServices ∧
      (ensureWorker c lib labelOf ts).2.configMaps = c.configMaps := by
  unfold ensureWorker
  rcases Cluster.listDeployments_cases c labelOf ts.name with ⟨e, hl⟩ | hl
  · rw [hl]
    simp
  · rw [hl]
    generalize (c.nextFault.2.server.deployments.entries.map Sigma.snd).filter
      (fun d => decide (labelOf d = some ts.name)) = ds
    cases ds with
    | nil =>
        dsimp only
        rcases createWorker c.nextFault.2.server ts lib with ⟨_ | e, s⟩ <;> simp
    | cons d rest => simp

@[simp] theorem ensureWorker_triggerServices (c : Cluster) (lib : Libraries)
    (labelOf : Deployment -> Option String) (ts : TriggerService) :
    (ensureWorker c lib labelOf ts).2.triggerServices = c.triggerServices :=
  (ensureWorker_frame c lib labelOf ts).1

@[simp] theorem ensureWorker_configMaps (c : Cluster) (lib : Libraries)
    (labelOf : Deployment -> Option String) (ts : TriggerService) :
    (ensureWorker c lib labelOf ts).2.configMaps = c.configMaps :=
  (ensureWorker_frame c lib labelOf ts).2

/-- When the end of `Reconcile` returns `nil`, the TriggerService has a worker: one the label
found, or the deployment `createWorker` made. -/
theorem ensureWorker_done {c : Cluster} {lib : Libraries}
    {labelOf : Deployment -> Option String} {ts : TriggerService}
    (h : (ensureWorker c lib labelOf ts).1 = Outcome.done) :
    HasWorker (ensureWorker c lib labelOf ts).2 labelOf ts := by
  unfold ensureWorker at h ⊢
  rcases Cluster.listDeployments_cases c labelOf ts.name with ⟨e, hl⟩ | hl
  · rw [hl] at h
    cases h
  · rw [hl] at h ⊢
    generalize hds : (c.nextFault.2.server.deployments.entries.map Sigma.snd).filter
      (fun d => decide (labelOf d = some ts.name)) = ds at h ⊢
    cases ds with
    | nil =>
        -- no deployment carries the label: the worker is the one `createWorker` made
        dsimp only at h ⊢
        rcases hw : createWorker c.nextFault.2.server ts lib with ⟨_ | e, s⟩
        · obtain ⟨-, -, d, -, -, -, -, hlookup⟩ := createWorker_none hw
          exact ⟨_, _, hlookup, Or.inr rfl⟩
        · rw [hw] at h
          cases h
    | cons d rest =>
        apply hasWorker_of_mem_listed (d := d)
        rw [hds]
        exact List.mem_cons_self

/-!
## What a `Reconcile` that returns `nil` leaves behind
-/

/-- When `Reconcile` of a TriggerService that does not take the finalizer branch returns
`nil`, its ConfigMap holds the JSON of its spec, and it has a worker. -/
theorem reconcileObject_done {c : Cluster} {lib : Libraries}
    {labelOf : Deployment -> Option String} {ts : TriggerServiceObject} {jsonByte : String}
    (hjson : ts.specJson = Except.ok jsonByte)
    (hfin : ¬(ts.deleting = true ∧ triggerServiceFinalizer ∉ ts.finalizers))
    (h : (reconcileObject c lib labelOf ts).1 = Outcome.done) :
    ConfigStored (reconcileObject c lib labelOf ts).2 ts.service jsonByte ∧
      HasWorker (reconcileObject c lib labelOf ts).2 labelOf ts.service := by
  unfold reconcileObject at h ⊢
  rw [if_neg hfin] at h ⊢
  rcases hh : handleTriggerConfig c ts with ⟨o, c1⟩
  rw [hh] at h
  cases o with
  | failed e => cases h
  | panicked m => cases h
  | done =>
      have hstored : ConfigStored c1 ts.service jsonByte := by
        have hdone := handleTriggerConfig_done (c := c) hjson (by rw [hh])
        rwa [hh] at hdone
      exact ⟨hstored.of_configMaps (ensureWorker_configMaps c1 lib labelOf ts.service),
        ensureWorker_done h⟩

/-!
## The reconciler's runs

The reconciler reconciles one request after another.  Two facts about the cluster hold in
every state of its runs: every TriggerService is stored under its own namespace and name,
and every ConfigMap has a name, `Create` refusing one without.  From them, a TriggerService
is never removed and never loses a finalizer.
-/

/-- Every TriggerService is stored under its own namespace and name. -/
def TriggerServicesNamed (a : AList (fun _ : NamespacedName => TriggerServiceObject)) : Prop :=
  ∀ key ts, a.lookup key = some ts -> key = ⟨ts.service.namespace_, ts.service.name⟩

/-- Every ConfigMap has a name. -/
def ConfigMapsNamed (a : AList (fun _ : NamespacedName => ConfigMap)) : Prop :=
  ∀ key ∈ a, key.name ≠ ""

/-- The invariants of the cluster the reconciler keeps. -/
structure WellFormed (c : Cluster) : Prop where
  triggerServices : TriggerServicesNamed c.triggerServices
  configMaps : ConfigMapsNamed c.configMaps

/-- One step of the reconciler: `Reconcile` of one request, whatever it returns. -/
def reconcileStep (lib : Libraries) (labelOf : Deployment -> Option String) (c : Cluster)
    (req : NamespacedName) : Option Cluster :=
  some (reconcile c lib labelOf req).2

theorem TriggerServicesNamed.insert {a : AList (fun _ : NamespacedName => TriggerServiceObject)}
    (h : TriggerServicesNamed a) (ts : TriggerServiceObject) :
    TriggerServicesNamed (a.insert ⟨ts.service.namespace_, ts.service.name⟩ ts) := by
  intro key ts' hkey
  by_cases hk : key = ⟨ts.service.namespace_, ts.service.name⟩
  · rw [hk, AList.lookup_insert] at hkey
    cases hkey
    exact hk
  · rw [AList.lookup_insert_ne hk] at hkey
    exact h key ts' hkey

theorem ConfigMapsNamed.insert {a : AList (fun _ : NamespacedName => ConfigMap)}
    (h : ConfigMapsNamed a) {key : NamespacedName} (hkey : key ∈ a ∨ key.name ≠ "")
    (cm : ConfigMap) : ConfigMapsNamed (a.insert key cm) := by
  intro key' hmem
  rcases (AList.mem_insert _).mp hmem with rfl | hmem
  · rcases hkey with hkey | hname
    · exact h _ hkey
    · exact hname
  · exact h key' hmem

theorem WellFormed.of_eq {c c' : Cluster} (hwf : WellFormed c)
    (ht : c'.triggerServices = c.triggerServices) (hc : c'.configMaps = c.configMaps) :
    WellFormed c' := by
  constructor
  · rw [ht]
    exact hwf.triggerServices
  · rw [hc]
    exact hwf.configMaps

/-- `Reconcile` of a TriggerService writes it only to add the finalizer to one being deleted,
under its own name, and at most sets its ConfigMap: the one there, or a new one with a
name. -/
theorem reconcileObject_frame (c : Cluster) (lib : Libraries)
    (labelOf : Deployment -> Option String) (ts : TriggerServiceObject) :
    ((reconcileObject c lib labelOf ts).2.triggerServices = c.triggerServices ∨
        ts.deleting = true ∧ (reconcileObject c lib labelOf ts).2.triggerServices =
          c.triggerServices.insert ⟨ts.service.namespace_, ts.service.name⟩
            { ts with finalizers := ts.finalizers ++ [triggerServiceFinalizer] }) ∧
      ((reconcileObject c lib labelOf ts).2.configMaps = c.configMaps ∨
        exists cm, (reconcileObject c lib labelOf ts).2.configMaps =
            c.configMaps.insert (configMapKey ts.service) cm ∧
          (configMapKey ts.service ∈ c.configMaps ∨ ts.service.name ≠ "")) := by
  unfold reconcileObject
  split
  · -- the finalizer branch writes the TriggerService and nothing else
    rename_i hfin
    rcases Cluster.update_cases c triggerServices ⟨ts.service.namespace_, ts.service.name⟩
      { ts with finalizers := ts.finalizers ++ [triggerServiceFinalizer] } with
      ⟨e, hu⟩ | ⟨-, hu⟩
    · rw [hu]
      exact ⟨Or.inl (by simp), Or.inl (by simp)⟩
    · rw [hu]
      exact ⟨Or.inr ⟨hfin.1, by simp [triggerServices]⟩, Or.inl (by simp [triggerServices])⟩
  · obtain ⟨ht, -, hc⟩ := handleTriggerConfig_frame c ts
    rcases hh : handleTriggerConfig c ts with ⟨o, c1⟩
    rw [hh] at ht hc
    cases o with
    | done =>
        dsimp only
        rw [ensureWorker_triggerServices, ensureWorker_configMaps]
        exact ⟨Or.inl ht, hc⟩
    | failed e => exact ⟨Or.inl ht, hc⟩
    | panicked m => exact ⟨Or.inl ht, hc⟩

/-- `Reconcile` fails at its `Get`, or reconciles the TriggerService it read, or the zero
value when the `Get` found none. -/
theorem reconcile_cases (c : Cluster) (lib : Libraries) (labelOf : Deployment -> Option String)
    (req : NamespacedName) :
    (exists e, reconcile c lib labelOf req =
        (Outcome.failed (ReconcileError.error (Error.api e)), c.nextFault.2)) ∨
      reconcile c lib labelOf req =
        reconcileObject c.nextFault.2 lib labelOf TriggerServiceObject.zero ∨
      exists ts, c.triggerServices.lookup req = some ts ∧
        reconcile c lib labelOf req = reconcileObject c.nextFault.2 lib labelOf ts := by
  unfold reconcile
  rcases Cluster.get_cases c triggerServices req with ⟨e, hg⟩ | ⟨ts, hl, hg⟩
  · rw [hg]
    dsimp only
    split
    · exact Or.inr (Or.inl rfl)
    · exact Or.inl ⟨e, rfl⟩
  · rw [hg]
    exact Or.inr (Or.inr ⟨ts, by simpa [triggerServices] using hl, rfl⟩)

theorem reconcileObject_wellFormed {c : Cluster} (hwf : WellFormed c) (lib : Libraries)
    (labelOf : Deployment -> Option String) (ts : TriggerServiceObject) :
    WellFormed (reconcileObject c lib labelOf ts).2 := by
  obtain ⟨ht, hc⟩ := reconcileObject_frame c lib labelOf ts
  constructor
  · rcases ht with ht | ⟨-, ht⟩
    · rw [ht]
      exact hwf.triggerServices
    · rw [ht]
      exact hwf.triggerServices.insert
        { ts with finalizers := ts.finalizers ++ [triggerServiceFinalizer] }
  · rcases hc with hc | ⟨cm, hc, hkey⟩
    · rw [hc]
      exact hwf.configMaps
    · rw [hc]
      exact hwf.configMaps.insert hkey cm

/-- Every `Reconcile` keeps the cluster well formed. -/
theorem reconcile_wellFormed {c : Cluster} (hwf : WellFormed c) (lib : Libraries)
    (labelOf : Deployment -> Option String) (req : NamespacedName) :
    WellFormed (reconcile c lib labelOf req).2 := by
  have hwf' : WellFormed c.nextFault.2 := hwf.of_eq (by simp) (by simp)
  rcases reconcile_cases c lib labelOf req with ⟨e, hr⟩ | hr | ⟨ts, -, hr⟩
  · rw [hr]
    exact hwf'
  · rw [hr]
    exact reconcileObject_wellFormed hwf' lib labelOf _
  · rw [hr]
    exact reconcileObject_wellFormed hwf' lib labelOf ts

/-- `Reconcile` removes no TriggerService of a well-formed cluster, and changes one only by
adding the finalizer. -/
theorem reconcile_grows {c : Cluster} (hwf : WellFormed c) (lib : Libraries)
    (labelOf : Deployment -> Option String) (req : NamespacedName) {key : NamespacedName}
    {ts : TriggerServiceObject} (hts : c.triggerServices.lookup key = some ts) :
    exists ts', (reconcile c lib labelOf req).2.triggerServices.lookup key = some ts' ∧
      (ts' = ts ∨ ts' = { ts with finalizers := ts.finalizers ++ [triggerServiceFinalizer] }) := by
  have hkeep : c.nextFault.2.triggerServices.lookup key = some ts := by
    simpa using hts
  rcases reconcile_cases c lib labelOf req with ⟨e, hr⟩ | hr | ⟨ts0, hts0, hr⟩
  · rw [hr]
    exact ⟨ts, hkeep, Or.inl rfl⟩
  · -- the zero value is not being deleted
    rw [hr]
    rcases (reconcileObject_frame c.nextFault.2 lib labelOf _).1 with ht | ⟨hdel, -⟩
    · rw [ht]
      exact ⟨ts, hkeep, Or.inl rfl⟩
    · cases hdel
  · rw [hr]
    rcases (reconcileObject_frame c.nextFault.2 lib labelOf ts0).1 with ht | ⟨-, ht⟩
    · rw [ht]
      exact ⟨ts, hkeep, Or.inl rfl⟩
    · rw [ht]
      by_cases hk : key = ⟨ts0.service.namespace_, ts0.service.name⟩
      · -- the TriggerService under the name written is the one `Reconcile` read
        have hreq := hwf.triggerServices req ts0 hts0
        have hsame : ts = ts0 := by
          rw [hk, ← hreq, hts0] at hts
          exact (Option.some_inj.mp hts).symm
        subst hsame
        rw [hk, AList.lookup_insert]
        exact ⟨_, rfl, Or.inr rfl⟩
      · rw [AList.lookup_insert_ne hk]
        exact ⟨ts, hkeep, Or.inl rfl⟩

/-- Libraries under which no template loads. -/
def noTemplates : Libraries :=
  { loadTemplate := fun name => Except.error (Error.value ("no template " ++ name))
    compile := fun _ _ => Except.error (Error.value "no template")
    decodeDeployment := fun _ => Except.error (Error.value "no template") }

/-- The TriggerService `demo` of `default`, without finalizers. -/
def demoObject : TriggerServiceObject :=
  { service := demoService, deleting := false, finalizers := [], specJson := Except.ok "\x7b\x7d" }

/-- The cluster where `demo` has a ConfigMap someone made without data. -/
def nilDataCluster : Cluster :=
  { server := accountExists,
    triggerServices := AList.singleton ⟨"default", "demo"⟩ demoObject,
    configMaps := AList.singleton ⟨"default", "demo"⟩ { ownerReferences := [], data := none },
    pods := ∅ }

theorem wellFormed_nilDataCluster : WellFormed nilDataCluster := by
  constructor
  · intro key ts h
    simp only [nilDataCluster, ← AList.insert_empty] at h
    by_cases hk : key = ⟨"default", "demo"⟩
    · subst hk
      rw [AList.lookup_insert, Option.some.injEq] at h
      subst h
      rfl
    · rw [AList.lookup_insert_ne hk, AList.lookup_empty] at h
      cases h
  · intro key h
    simp only [nilDataCluster, ← AList.insert_empty] at h
    rw [(AList.mem_insert _).mp h |>.resolve_right (AList.notMem_empty key)]
    decide

end Controllers
end KubeTrigger
