import Mathlib.Data.List.AList
import KubeTrigger.ResourceWatcher.Controller

/-!
# The resource watcher

`K8sResourceWatcher` is the `resource-watcher` source (k8s_resource_watcher.go).  It is a
singleton: `run` in cmd.go `Init`s one instance with every trigger of that source type, in
order, and then `Run`s it.  `Init` files the trigger's configuration under its `Key`,
merging it into the configuration already there, and appends the trigger's event handler
to the handlers of that key.  `Run` starts one controller for every key and every cluster
of the key's configuration (the local one when it lists none), with all the handlers of
the key.

So the triggers of one key share their controllers: each handler is called for the events
of the merged configuration, in the clusters of the first trigger of its key.  `Groups`
says what `Init` leaves under each key, and `calls_of_run` what every handler then
receives.  The triggers get what each of them asks for when the triggers of one key agree
on what they name, their clusters and their events (`calls_of_run_consistent`); otherwise
they do not.
-/

namespace KubeTrigger
namespace ResourceWatcher

variable {H : Type}

/-- `K8sResourceWatcher`: the configurations and the event handlers, by `Key`. -/
structure K8sResourceWatcher (H : Type) where
  configs : AList (fun _ : String => Config)
  eventHandlers : AList (fun _ : String => List H)

/-- `New`. -/
def K8sResourceWatcher.new : K8sResourceWatcher H :=
  { configs := ∅, eventHandlers := ∅ }

/-- `Init` of a trigger whose properties parse to `ctrlConf`, with its event handler `eh`. -/
def K8sResourceWatcher.init (w : K8sResourceWatcher H) (ctrlConf : Config) (eh : H) :
    K8sResourceWatcher H :=
  { configs :=
      match w.configs.lookup ctrlConf.key with
      | some orig => w.configs.insert ctrlConf.key (orig.merge ctrlConf)
      | none => w.configs.insert ctrlConf.key ctrlConf
    eventHandlers :=
      w.eventHandlers.insert ctrlConf.key ((w.eventHandlers.lookup ctrlConf.key).getD [] ++ [eh]) }

/-- The loop of `run` (cmd.go) over the triggers of the `resource-watcher` source: one
instance, the source being a singleton, `Init`s them in order. -/
def initTriggers (triggers : List (Config × H)) : K8sResourceWatcher H :=
  triggers.foldl (fun w t => w.init t.1 t.2) K8sResourceWatcher.new

/-- `defaultCluster`. -/
def defaultCluster : String := "local"

/-- The configuration as `Run` hands it to `Setup`: no clusters means the local one. -/
def withDefaultCluster (config : Config) : Config :=
  if config.clusters = [] then { config with clusters := [defaultCluster] } else config

theorem withDefaultCluster_eq (config : Config) :
    withDefaultCluster config =
      { config with clusters := if config.clusters = [] then [defaultCluster] else config.clusters } := by
  unfold withDefaultCluster
  split
  · rfl
  · rfl

/-- The loop of `Run` over the clusters of one configuration: a controller for each cluster,
up to the first one for which `GetDynamicClientAndMapper` fails; `false` when one fails. -/
def runClusters (getClient : String -> Bool) (config : Config) (handlers : List H) :
    List String -> List (Controller H) × Bool
  | [] => ([], true)
  | cluster :: rest =>
      if getClient cluster then
        let r := runClusters getClient config handlers rest
        (setup cluster config handlers :: r.1, r.2)
      else ([], false)

/-- The loop of `Run` over the configurations. -/
def runConfigs (getClient : String -> Bool) (eventHandlers : AList (fun _ : String => List H)) :
    List (Sigma (fun _ : String => Config)) -> List (Controller H) × Bool
  | [] => ([], true)
  | ⟨k, config⟩ :: rest =>
      let config := withDefaultCluster config
      let r := runClusters getClient config ((eventHandlers.lookup k).getD []) config.clusters
      if r.2 then
        let r' := runConfigs getClient eventHandlers rest
        (r.1 ++ r'.1, r'.2)
      else r

/-- `Run`: the controllers it starts, and whether it returns `nil`.  `getter` is `none` when
`NewMultiClustersGetter` fails, and otherwise says for which clusters
`GetDynamicClientAndMapper` succeeds.  The order of `configs` stands for Go's map order. -/
def K8sResourceWatcher.run (getter : Option (String -> Bool)) (w : K8sResourceWatcher H) :
    List (Controller H) × Bool :=
  match getter with
  | none => ([], false)
  | some getClient => runConfigs getClient w.eventHandlers w.configs.entries

/-!
## What `Init` files under each key
-/

/-- The triggers of key `k`, in order. -/
def group (k : String) (ts : List (Config × H)) : List (Config × H) :=
  ts.filter (fun t => t.1.key = k)

/-- The configurations of a group folded by `Merge`: the first one, with the later ones
merged in. -/
def mergeAll : List Config -> Option Config
  | [] => none
  | c :: rest => some (rest.foldl Config.merge c)

/-- What `Init` of the triggers `ts` leaves under each key. -/
structure Groups (ts : List (Config × H)) (w : K8sResourceWatcher H) : Prop where
  configs : forall k, w.configs.lookup k = mergeAll ((group k ts).map Prod.fst)
  handlers : forall k, (w.eventHandlers.lookup k).getD [] = (group k ts).map Prod.snd

theorem group_snoc (k : String) (ts : List (Config × H)) (t : Config × H) :
    group k (ts ++ [t]) = group k ts ++ (if t.1.key = k then [t] else []) := by
  unfold group
  rw [List.filter_append]
  by_cases hk : t.1.key = k
  · simp [hk]
  · simp [hk]

theorem mergeAll_snoc (l : List Config) (c : Config) :
    mergeAll (l ++ [c]) = some (((mergeAll l).map (fun orig => orig.merge c)).getD c) := by
  cases l with
  | nil => rfl
  | cons first rest =>
      simp only [List.cons_append, mergeAll, List.foldl_append, List.foldl_cons, List.foldl_nil,
        Option.map_some, Option.getD_some]

theorem lookup_init_configs (w : K8sResourceWatcher H) (conf : Config) (eh : H) (k : String) :
    (w.init conf eh).configs.lookup k =
      if k = conf.key then
        some (((w.configs.lookup conf.key).map (fun orig => orig.merge conf)).getD conf)
      else w.configs.lookup k := by
  unfold K8sResourceWatcher.init
  by_cases hk : k = conf.key
  · rw [if_pos hk, hk]
    cases w.configs.lookup conf.key with
    | none => exact AList.lookup_insert _
    | some orig => exact AList.lookup_insert _
  · rw [if_neg hk]
    cases w.configs.lookup conf.key with
    | none => exact AList.lookup_insert_ne hk
    | some orig => exact AList.lookup_insert_ne hk

theorem lookup_init_handlers (w : K8sResourceWatcher H) (conf : Config) (eh : H) (k : String) :
    (w.init conf eh).eventHandlers.lookup k =
      if k = conf.key then some ((w.eventHandlers.lookup conf.key).getD [] ++ [eh])
      else w.eventHandlers.lookup k := by
  unfold K8sResourceWatcher.init
  by_cases hk : k = conf.key
  · rw [if_pos hk, hk]
    exact AList.lookup_insert _
  · rw [if_neg hk]
    exact AList.lookup_insert_ne hk

theorem groups_new : Groups [] (K8sResourceWatcher.new : K8sResourceWatcher H) := by
  constructor
  · intro k
    rfl
  · intro k
    rfl

/-- `Init` of one more trigger keeps `Groups`. -/
theorem Groups.init {ts : List (Config × H)} {w : K8sResourceWatcher H} (hg : Groups ts w)
    (t : Config × H) : Groups (ts ++ [t]) (w.init t.1 t.2) := by
  constructor
  · intro k
    rw [lookup_init_configs, group_snoc]
    by_cases hk : k = t.1.key
    · -- the configuration is merged into the group's
      rw [if_pos hk, if_pos hk.symm, List.map_append, List.map_singleton, mergeAll_snoc, ← hk,
        ← hg.configs k]
    · rw [if_neg hk, if_neg (Ne.symm hk), List.append_nil]
      exact hg.configs k
  · intro k
    rw [lookup_init_handlers, group_snoc]
    by_cases hk : k = t.1.key
    · rw [if_pos hk, if_pos hk.symm, List.map_append, ← hk, ← hg.handlers k]
      rfl
    · rw [if_neg hk, if_neg (Ne.symm hk), List.append_nil]
      exact hg.handlers k

/-- The run lemma of the loop in cmd.go. -/
theorem Groups.foldl {acc : List (Config × H)} {w : K8sResourceWatcher H} (hg : Groups acc w) :
    forall ts : List (Config × H),
      Groups (acc ++ ts) (ts.foldl (fun w t => w.init t.1 t.2) w) := by
  intro ts
  induction ts generalizing acc w with
  | nil => simpa using hg
  | cons t rest ih =>
      rw [List.foldl_cons, ← List.singleton_append, ← List.append_assoc]
      exact ih (hg.init t)

theorem groups_initTriggers (ts : List (Config × H)) : Groups ts (initTriggers ts) := by
  have h := groups_new.foldl ts
  rw [List.nil_append] at h
  exact h

/-!
## The merged configuration of a group
-/

/-- Folding `Merge` changes only the events and the labels. -/
theorem foldl_merge (c : Config) : forall rest : List Config,
    rest.foldl Config.merge c =
      { c with
        events := rest.foldl (fun es c' => mergeEvents es c'.events) c.events
        matchingLabels :=
          rest.foldl (fun ls c' => mergeLabels ls c'.matchingLabels) c.matchingLabels } := by
  intro rest
  induction rest generalizing c with
  | nil => rfl
  | cons c' rest ih => exact ih (c.merge c')

theorem mem_foldl_mergeEvents {e : EventType} : forall (rest : List Config) (es : List EventType),
    e ∈ rest.foldl (fun es c' => mergeEvents es c'.events) es ↔
      e ∈ es ∨ ∃ c' ∈ rest, e ∈ c'.events := by
  intro rest
  induction rest with
  | nil => simp
  | cons c' rest ih =>
      intro es
      rw [List.foldl_cons, ih, mem_mergeEvents]
      simp only [List.mem_cons, exists_eq_or_imp]
      tauto

/-- Labels that every later configuration repeats stay as they are. -/
theorem foldl_mergeLabels_of_eq (ls : List (String × String)) : forall rest : List Config,
    (∀ c' ∈ rest, c'.matchingLabels = ls) ->
      rest.foldl (fun ls c' => mergeLabels ls c'.matchingLabels) ls = ls := by
  intro rest
  induction rest with
  | nil => intro _; rfl
  | cons c' rest ih =>
      intro hall
      rw [List.foldl_cons, hall c' (List.mem_cons_self ..), mergeLabels_self]
      exact ih (fun c'' h => hall c'' (List.mem_cons_of_mem c' h))

theorem withDefaultCluster_clusters_congr {c c' : Config} (h : c.clusters = c'.clusters) :
    (withDefaultCluster c).clusters = (withDefaultCluster c').clusters := by
  rw [withDefaultCluster_eq, withDefaultCluster_eq, h]

/-- The controller of a group listens to a type when one of the group lists it, or none
lists any. -/
theorem listens_merged (x : String) (first : Config) (rest : List Config) (hs : List H)
    (type : EventType) :
    (setup x (withDefaultCluster (rest.foldl Config.merge first)) hs).listens type ↔
      (∀ c ∈ first :: rest, c.events = []) ∨ ∃ c ∈ first :: rest, type ∈ c.events := by
  have hevents : (withDefaultCluster (rest.foldl Config.merge first)).events =
      rest.foldl (fun es c' => mergeEvents es c'.events) first.events := by
    rw [withDefaultCluster_eq, foldl_merge]
  have hmem : forall e, e ∈ rest.foldl (fun es c' => mergeEvents es c'.events) first.events ↔
      ∃ c ∈ first :: rest, e ∈ c.events := by
    intro e
    rw [mem_foldl_mergeEvents]
    simp
  simp only [Controller.listens, setup, hevents]
  constructor
  · rintro (hnil | hin)
    · refine Or.inl (fun c hc => List.eq_nil_iff_forall_not_mem.mpr (fun e he => ?_))
      have : e ∈ rest.foldl (fun es c' => mergeEvents es c'.events) first.events :=
        (hmem e).mpr ⟨c, hc, he⟩
      rw [hnil] at this
      cases this
    · exact Or.inr ((hmem type).mp hin)
  · rintro (hnil | hin)
    · refine Or.inl (List.eq_nil_iff_forall_not_mem.mpr (fun e he => ?_))
      obtain ⟨c, hc, hec⟩ := (hmem e).mp he
      rw [hnil c hc] at hec
      cases hec
    · exact Or.inr ((hmem type).mpr hin)

/-!
## The controllers that `Run` starts
-/

theorem mem_runClusters {getClient : String -> Bool} {config : Config} {hs : List H}
    {c : Controller H} : forall {xs : List String},
      c ∈ (runClusters getClient config hs xs).1 -> ∃ x ∈ xs, c = setup x config hs := by
  intro xs
  induction xs with
  | nil => intro h; cases h
  | cons x rest ih =>
      intro h
      simp only [runClusters] at h
      split at h
      · rcases List.mem_cons.mp h with rfl | h
        · exact ⟨x, List.mem_cons_self .., rfl⟩
        · obtain ⟨y, hy, rfl⟩ := ih h
          exact ⟨y, List.mem_cons_of_mem x hy, rfl⟩
      · cases h

theorem runClusters_of_getClient {getClient : String -> Bool} (hok : forall x, getClient x = true)
    (config : Config) (hs : List H) : forall xs : List String,
      runClusters getClient config hs xs = (xs.map (fun x => setup x config hs), true) := by
  intro xs
  induction xs with
  | nil => rfl
  | cons x rest ih =>
      simp only [runClusters, hok x, if_true, ih, List.map_cons]

/-- Every controller that `Run` starts is the controller of one configuration in one of its
clusters, errors or not. -/
theorem mem_runConfigs {getClient : String -> Bool} {eh : AList (fun _ : String => List H)}
    {c : Controller H} : forall {es : List (Sigma (fun _ : String => Config))},
      c ∈ (runConfigs getClient eh es).1 ->
        ∃ e ∈ es, ∃ x ∈ (withDefaultCluster e.2).clusters,
          c = setup x (withDefaultCluster e.2) ((eh.lookup e.1).getD []) := by
  intro es
  induction es with
  | nil => intro h; cases h
  | cons e rest ih =>
      intro h
      obtain ⟨k, config⟩ := e
      simp only [runConfigs] at h
      split at h
      · rcases List.mem_append.mp h with h | h
        · obtain ⟨x, hx, rfl⟩ := mem_runClusters h
          exact ⟨⟨k, config⟩, List.mem_cons_self .., x, hx, rfl⟩
        · obtain ⟨e', he', x, hx, rfl⟩ := ih h
          exact ⟨e', List.mem_cons_of_mem _ he', x, hx, rfl⟩
      · obtain ⟨x, hx, rfl⟩ := mem_runClusters h
        exact ⟨⟨k, config⟩, List.mem_cons_self .., x, hx, rfl⟩

theorem runConfigs_of_getClient {getClient : String -> Bool} (hok : forall x, getClient x = true)
    (eh : AList (fun _ : String => List H)) : forall es : List (Sigma (fun _ : String => Config)),
      runConfigs getClient eh es =
        (es.flatMap (fun e => (withDefaultCluster e.2).clusters.map
          (fun x => setup x (withDefaultCluster e.2) ((eh.lookup e.1).getD []))), true) := by
  intro es
  induction es with
  | nil => rfl
  | cons e rest ih =>
      obtain ⟨k, config⟩ := e
      simp only [runConfigs, runClusters_of_getClient hok, if_true, ih, List.flatMap_cons]

/-- The controllers that `Run` starts serve the keys of `configs`, in their clusters. -/
theorem mem_run {getter : Option (String -> Bool)} {w : K8sResourceWatcher H} {c : Controller H}
    (hc : c ∈ (w.run getter).1) :
    exists k conf, w.configs.lookup k = some conf ∧
      ∃ x ∈ (withDefaultCluster conf).clusters,
        c = setup x (withDefaultCluster conf) ((w.eventHandlers.lookup k).getD []) := by
  cases getter with
  | none => cases hc
  | some getClient =>
      obtain ⟨⟨k, conf⟩, he, x, hx, rfl⟩ := mem_runConfigs hc
      exact ⟨k, conf, AList.mem_lookup_iff.mpr he, x, hx, rfl⟩

/-- When every cluster's client is made, `Run` starts a controller for every key in every
cluster of its configuration. -/
theorem mem_run_of_getClient {getClient : String -> Bool} (hok : forall x, getClient x = true)
    {w : K8sResourceWatcher H} {k : String} {conf : Config} (hk : w.configs.lookup k = some conf)
    {x : String} (hx : x ∈ (withDefaultCluster conf).clusters) :
    setup x (withDefaultCluster conf) ((w.eventHandlers.lookup k).getD []) ∈
      (w.run (some getClient)).1 := by
  simp only [K8sResourceWatcher.run, runConfigs_of_getClient hok, List.mem_flatMap, List.mem_map]
  exact ⟨⟨k, conf⟩, AList.mem_lookup_iff.mp hk, x, hx, rfl⟩

/-!
## What the handlers receive
-/

theorem mem_group {k : String} {ts : List (Config × H)} {t : Config × H} :
    t ∈ group k ts ↔ t ∈ ts ∧ t.1.key = k := by
  simp [group]

theorem forall_mem_group {k : String} {ts : List (Config × H)} {P : Config × H -> Prop} :
    (∀ t ∈ group k ts, P t) ↔ ∀ t ∈ ts, t.1.key = k -> P t := by
  simp [mem_group]

theorem exists_mem_group {k : String} {ts : List (Config × H)} {P : Config × H -> Prop} :
    (∃ t ∈ group k ts, P t) ↔ ∃ t ∈ ts, t.1.key = k ∧ P t := by
  simp [mem_group, and_assoc]

theorem mem_of_group_eq {k : String} {ts : List (Config × H)} {first : Config × H}
    {rest : List (Config × H)} (hgroup : group k ts = first :: rest) {t : Config × H}
    (ht : t ∈ first :: rest) : t ∈ ts ∧ t.1.key = k := by
  rw [← hgroup] at ht
  exact mem_group.mp ht

/-- The controller of a group in cluster `x`: the configurations of the group merged, with
all the handlers of the group. -/
def groupController (x : String) (first : Config × H) (rest : List (Config × H)) :
    Controller H :=
  setup x (withDefaultCluster ((rest.map Prod.fst).foldl Config.merge first.1))
    ((first :: rest).map Prod.snd)

/-- Every controller that `Run` starts after `Init` of the triggers `ts` is the controller of
the group of one key, in a cluster of the first trigger of the group. -/
theorem controller_of_run {ts : List (Config × H)} {getter : Option (String -> Bool)}
    {c : Controller H} (hc : c ∈ ((initTriggers ts).run getter).1) :
    exists k first rest x, group k ts = first :: rest ∧
      x ∈ (withDefaultCluster first.1).clusters ∧ c = groupController x first rest := by
  have hg := groups_initTriggers ts
  obtain ⟨k, conf, hk, x, hx, rfl⟩ := mem_run hc
  rw [hg.configs k] at hk
  rw [hg.handlers k]
  cases hgroup : group k ts with
  | nil =>
      rw [hgroup] at hk
      cases hk
  | cons first rest =>
      rw [hgroup] at hk
      simp only [List.map_cons, mergeAll, Option.some.injEq] at hk
      subst hk
      -- the merged configuration keeps the clusters of the first
      have hclusters : (withDefaultCluster ((rest.map Prod.fst).foldl Config.merge first.1)).clusters =
          (withDefaultCluster first.1).clusters := by
        apply withDefaultCluster_clusters_congr
        rw [foldl_merge]
      refine ⟨k, first, rest, x, hgroup, ?_, rfl⟩
      rw [← hclusters]
      exact hx

/-- The handlers that the controller of the group of key `k` calls on an event of its
informer: those of the group, when one of the group lists the type or none lists any, and
for a `create` only when the object is new enough. -/
theorem calls_of_group {k : String} {ts : List (Config × H)} {first : Config × H}
    {rest : List (Config × H)} (hgroup : group k ts = first :: rest) (x : String)
    (serverStartTime : Option Int) (type : EventType) (obj : ObjectMeta) (h : H) :
    (exists e o, (h, e, o) ∈ (groupController x first rest).processItem serverStartTime
        ((groupController x first rest).informerEvent type obj)) ↔
      (∃ t ∈ ts, t.1.key = k ∧ t.2 = h) ∧
        ((∀ t ∈ ts, t.1.key = k -> t.1.events = []) ∨
          ∃ t ∈ ts, t.1.key = k ∧ type ∈ t.1.events) ∧
        (type = EventType.create -> createdAfter obj.creationTimestamp serverStartTime = true) := by
  have hhandlers : h ∈ (groupController x first rest).eventHandlers ↔
      ∃ t ∈ ts, t.1.key = k ∧ t.2 = h := by
    rw [← exists_mem_group, hgroup]
    simp [groupController, setup, eq_comm]
  have hlistens : (groupController x first rest).listens type ↔
      ((∀ t ∈ ts, t.1.key = k -> t.1.events = []) ∨ ∃ t ∈ ts, t.1.key = k ∧ type ∈ t.1.events) := by
    rw [← forall_mem_group, ← exists_mem_group, hgroup, groupController, listens_merged,
      ← List.map_cons, List.forall_mem_map]
    simp only [List.mem_map, exists_exists_and_eq_and]
  rw [mem_processItem_informerEvent, hhandlers, hlistens]

/-- The handlers that a controller started after `Init` of the triggers `ts` calls on an
event of its informer: those of the triggers of its key, when one of them lists the type or
none of them lists any, and for a `create` only when the object is new enough. -/
theorem calls_of_run {ts : List (Config × H)} {getter : Option (String -> Bool)}
    {c : Controller H} (hc : c ∈ ((initTriggers ts).run getter).1) :
    exists k, forall (serverStartTime : Option Int) (type : EventType) (obj : ObjectMeta) (h : H),
      (exists e o, (h, e, o) ∈ c.processItem serverStartTime (c.informerEvent type obj)) ↔
        (∃ t ∈ ts, t.1.key = k ∧ t.2 = h) ∧
        ((∀ t ∈ ts, t.1.key = k -> t.1.events = []) ∨
          ∃ t ∈ ts, t.1.key = k ∧ type ∈ t.1.events) ∧
        (type = EventType.create -> createdAfter obj.creationTimestamp serverStartTime = true) := by
  obtain ⟨k, first, rest, x, hgroup, -, rfl⟩ := controller_of_run hc
  exact ⟨k, calls_of_group hgroup x⟩

/-!
## What each trigger asks for
-/

/-- What trigger `t` asks for, of the events of type `type` that the informer of controller
`c` raises: `c` watches the resources that `t` names, in one of `t`'s clusters, and `t` lists
the type or lists none. -/
def Config.wants (t : Config) (c : Controller H) (type : EventType) : Prop :=
  t.apiVersion = c.sourceConf.apiVersion ∧ t.kind = c.sourceConf.kind ∧
    t.namespace_ = c.sourceConf.namespace_ ∧ t.matchingLabels = c.sourceConf.matchingLabels ∧
    c.cluster ∈ (withDefaultCluster t).clusters ∧ (t.events = [] ∨ type ∈ t.events)

instance (t : Config) (c : Controller H) (type : EventType) : Decidable (t.wants c type) :=
  inferInstanceAs (Decidable (_ ∧ _))

/-- Two configurations name the same resources and list the same clusters and events. -/
structure Config.Agrees (c c' : Config) : Prop where
  apiVersion : c.apiVersion = c'.apiVersion
  kind : c.kind = c'.kind
  namespace_ : c.namespace_ = c'.namespace_
  matchingLabels : c.matchingLabels = c'.matchingLabels
  clusters : c.clusters = c'.clusters
  events : ∀ e, e ∈ c.events ↔ e ∈ c'.events

/-- The triggers of one key agree. -/
def Consistent (ts : List (Config × H)) : Prop :=
  ∀ t ∈ ts, ∀ t' ∈ ts, t.1.key = t'.1.key -> t.1.Agrees t'.1

section Consistent

variable {ts : List (Config × H)} {k : String} {first : Config × H} {rest : List (Config × H)}

/-- Every trigger of a key agrees with the first one of its group. -/
theorem Consistent.agrees_first (hcons : Consistent ts) (hgroup : group k ts = first :: rest) :
    ∀ t ∈ ts, t.1.key = k -> t.1.Agrees first.1 := by
  intro t ht hk
  have hfirst := mem_of_group_eq hgroup (List.mem_cons_self ..)
  exact hcons t ht first hfirst.1 (hk.trans hfirst.2.symm)

/-- So the group's labels are those of the first trigger. -/
theorem Consistent.labels_of_group (hcons : Consistent ts) (hgroup : group k ts = first :: rest) :
    ∀ t ∈ rest, t.1.matchingLabels = first.1.matchingLabels := by
  intro t ht
  have hmem := mem_of_group_eq hgroup (List.mem_cons_of_mem first ht)
  exact (hcons.agrees_first hgroup t hmem.1 hmem.2).matchingLabels

end Consistent

/-- `Key` reads only what a configuration names. -/
theorem key_congr {c c' : Config} (ha : c.apiVersion = c'.apiVersion) (hk : c.kind = c'.kind)
    (hn : c.namespace_ = c'.namespace_) (hl : c.matchingLabels = c'.matchingLabels) :
    c.key = c'.key := by
  unfold Config.key
  rw [ha, hk, hn, hl]

/-- A trigger asks the controller of a group whose labels all agree for what it names
like the first of the group, in its own clusters. -/
theorem wants_groupController {x : String} {first : Config × H} {rest : List (Config × H)}
    (hlabels : ∀ t ∈ rest, t.1.matchingLabels = first.1.matchingLabels) (t : Config)
    (type : EventType) :
    t.wants (groupController x first rest) type ↔
      t.apiVersion = first.1.apiVersion ∧ t.kind = first.1.kind ∧
        t.namespace_ = first.1.namespace_ ∧ t.matchingLabels = first.1.matchingLabels ∧
        x ∈ (withDefaultCluster t).clusters ∧ (t.events = [] ∨ type ∈ t.events) := by
  have hlabels' : ∀ c ∈ rest.map Prod.fst, c.matchingLabels = first.1.matchingLabels :=
    List.forall_mem_map.mpr hlabels
  simp only [Config.wants, groupController, setup, withDefaultCluster_eq, foldl_merge,
    foldl_mergeLabels_of_eq _ _ hlabels']

/-- When every cluster's client is made and the triggers of one key agree, every trigger
has a controller in each of its clusters that watches what the trigger names and calls its
handler. -/
theorem controller_for_trigger {ts : List (Config × H)} (hcons : Consistent ts)
    {getClient : String -> Bool} (hok : forall x, getClient x = true) {t : Config × H}
    (ht : t ∈ ts) {x : String} (hx : x ∈ (withDefaultCluster t.1).clusters) :
    ∃ c ∈ ((initTriggers ts).run (some getClient)).1,
      c.cluster = x ∧ t.2 ∈ c.eventHandlers ∧
        ∀ type, (t.1.events = [] ∨ type ∈ t.1.events) -> t.1.wants c type := by
  have hg := groups_initTriggers ts
  have hin : t ∈ group t.1.key ts := mem_group.mpr ⟨ht, rfl⟩
  cases hgroup : group t.1.key ts with
  | nil =>
      rw [hgroup] at hin
      cases hin
  | cons first rest =>
      have ag : t.1.Agrees first.1 := hcons.agrees_first hgroup t ht rfl
      have hlabels := hcons.labels_of_group hgroup
      have hconf : (initTriggers ts).configs.lookup t.1.key =
          some ((rest.map Prod.fst).foldl Config.merge first.1) := by
        rw [hg.configs, hgroup]
        rfl
      have hclusters : ((rest.map Prod.fst).foldl Config.merge first.1).clusters = t.1.clusters := by
        rw [foldl_merge]
        exact ag.clusters.symm
      have hx' : x ∈ (withDefaultCluster ((rest.map Prod.fst).foldl Config.merge first.1)).clusters := by
        rw [withDefaultCluster_clusters_congr hclusters]
        exact hx
      have hc := mem_run_of_getClient hok hconf hx'
      rw [hg.handlers, hgroup] at hc
      refine ⟨groupController x first rest, hc, rfl, ?_, ?_⟩
      · rw [hgroup] at hin
        simp only [groupController, setup]
        exact List.mem_map_of_mem hin
      · intro type hev
        exact (wants_groupController hlabels t.1 type).mpr
          ⟨ag.apiVersion, ag.kind, ag.namespace_, ag.matchingLabels, hx, hev⟩

/-!
## Triggers of one key that list different events

Two triggers watch the config maps of `default` in the local cluster: the first only their
updates, like the example of the README ("Only watch update event"), the second every event.
Their keys are equal, so `Run` starts one controller for both, which listens to updates
only: the second trigger's handler is never called for a `create` or a `delete`.
-/

def updatesOnly : Config :=
  { apiVersion := "v1", kind := "ConfigMap", namespace_ := "default"
    events := [EventType.update], matchingLabels := [], clusters := [] }

def everyEvent : Config :=
  { updatesOnly with events := [] }

def updatesThenEvery : List (Config × Nat) :=
  [(updatesOnly, 0), (everyEvent, 1)]

/-- The one controller that `Run` starts for both triggers. -/
def sharedController : Controller Nat :=
  setup "local" { updatesOnly with clusters := ["local"] } [0, 1]

theorem merged_events_narrow_trigger :
    ((initTriggers updatesThenEvery).run (some fun _ => true)).1 = [sharedController] ∧
      everyEvent.wants sharedController EventType.create ∧
      everyEvent.wants sharedController EventType.delete ∧
      ∀ (serverStartTime : Option Int) (type : EventType) (obj : ObjectMeta),
        type ≠ EventType.update ->
          sharedController.processItem serverStartTime
            (sharedController.informerEvent type obj) = [] := by
  refine ⟨by decide +kernel, by decide +kernel, by decide +kernel, ?_⟩
  intro serverStartTime type obj htype
  cases type with
  | create => rfl
  | update => exact absurd rfl htype
  | delete => rfl

end ResourceWatcher
end KubeTrigger
