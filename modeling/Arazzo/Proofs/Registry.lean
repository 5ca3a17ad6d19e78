import Arazzo.Run.Workflow

/-! Documents within a registry, their workflows, and which of them depend on which. -/

namespace Arazzo
namespace Registry

def at? : DocumentKey → Registry → Option Registry
  | [], r => some r
  | name :: rest, r => (Table.get? name r.nested).bind (at? rest)

theorem at?_append (path : DocumentKey) (name : String) (r : Registry) :
    r.at? (path ++ [name]) = (r.at? path).bind fun home => Table.get? name home.nested := by
  induction path generalizing r with
  | nil => cases h : Table.get? name r.nested <;> simp [at?, h]
  | cons first rest ih =>
    rw [List.cons_append, at?, at?, Option.bind_assoc]
    exact congrArg _ (funext ih)

mutual

/-- One key for each workflow of all documents; `path` leads to the first of them. -/
def workflowKeys (path : DocumentKey) : Registry → List WorkflowKey
  | .mk document _ _ nested =>
    document.workflows.map (fun w => ⟨path, w.workflowId⟩) ++ nestedWorkflowKeys path nested

def nestedWorkflowKeys (path : DocumentKey) : List (String × Registry) → List WorkflowKey
  | [] => []
  | (name, r) :: rest => workflowKeys (path ++ [name]) r ++ nestedWorkflowKeys path rest

end

mutual

theorem length_workflowKeys (path : DocumentKey) :
    ∀ r : Registry, (r.workflowKeys path).length = r.workflows.length
  | .mk document _ _ nested => by
    simp only [workflowKeys, workflows, List.length_append, List.length_map,
      length_nestedWorkflowKeys path nested]

theorem length_nestedWorkflowKeys (path : DocumentKey) :
    ∀ nested, (nestedWorkflowKeys path nested).length = (nestedWorkflows nested).length
  | [] => rfl
  | (name, r) :: rest => by
    simp only [nestedWorkflowKeys, nestedWorkflows, List.length_append,
      length_workflowKeys (path ++ [name]) r, length_nestedWorkflowKeys path rest]

end

variable {path start : DocumentKey} {name : String} {r home : Registry} {w : Workflow}

theorem nestedWorkflowKeys_eq (path : DocumentKey) (nested : Table Registry) :
    nestedWorkflowKeys path nested =
      nested.flatMap fun entry => entry.2.workflowKeys (path ++ [entry.1]) := by
  induction nested with
  | nil => rfl
  | cons entry rest ih => rw [nestedWorkflowKeys, ih, List.flatMap_cons]

theorem nestedWorkflows_eq (nested : Table Registry) :
    nestedWorkflows nested = nested.flatMap fun entry => entry.2.workflows := by
  induction nested with
  | nil => rfl
  | cons entry rest ih => rw [nestedWorkflows, ih, List.flatMap_cons]

theorem workflowKeys_of_at? (h : r.at? path = some home) :
    home.workflowKeys (start ++ path) ⊆ r.workflowKeys start := by
  induction path generalizing start r with
  | nil =>
    obtain rfl : r = home := by simpa [at?] using h
    simp
  | cons name rest ih =>
    obtain ⟨next, hnext, hrest⟩ := Option.bind_eq_some_iff.mp h
    have inner : home.workflowKeys (start ++ [name] ++ rest) ⊆ next.workflowKeys (start ++ [name]) :=
      ih hrest
    obtain ⟨document, location, openapi, nested⟩ := r
    rw [List.append_assoc, List.singleton_append] at inner
    intro key hkey
    rw [workflowKeys, nestedWorkflowKeys_eq]
    exact List.mem_append_right _ (List.mem_flatMap_of_mem (Table.mem_of_get? hnext) (inner hkey))

theorem workflows_of_at? (h : r.at? path = some home) : home.workflows ⊆ r.workflows := by
  induction path generalizing r with
  | nil =>
    obtain rfl : r = home := by simpa [at?] using h
    exact fun _ hw => hw
  | cons name rest ih =>
    obtain ⟨next, hnext, hrest⟩ := Option.bind_eq_some_iff.mp h
    obtain ⟨document, location, openapi, nested⟩ := r
    intro w hw
    rw [workflows, nestedWorkflows_eq]
    exact List.mem_append_right _ (List.mem_flatMap_of_mem (Table.mem_of_get? hnext) (ih hrest hw))

end Registry

theorem Document.workflow?_some {document : Document} {workflowId : String} {w : Workflow}
    (h : document.workflow? workflowId = some w) :
    w ∈ document.workflows ∧ w.workflowId = workflowId :=
  ⟨List.mem_of_find?_eq_some h, by simpa using List.find?_some h⟩

/-- A scene is part of a registry when its key leads to it. -/
def Scene.In (registry : Registry) (scene : Scene) : Prop :=
  registry.at? scene.key = some scene.registry

/-- A workflow that a document of the registry has under its id. -/
structure Home (registry : Registry) (scene : Scene) (w : Workflow) : Prop where
  scene_in : scene.In registry
  found : scene.registry.document.workflow? w.workflowId = some w

def Scene.keyOf (scene : Scene) (w : Workflow) : WorkflowKey := ⟨scene.key, w.workflowId⟩

theorem Scene.In.home {registry : Registry} {scene : Scene} {workflowId : String} {w : Workflow}
    (hscene : scene.In registry) (h : scene.registry.document.workflow? workflowId = some w) :
    Home registry scene w :=
  ⟨hscene, (Document.workflow?_some h).2 ▸ h⟩

namespace Home

variable {registry : Registry} {scene : Scene} {w : Workflow}

theorem mem_workflowKeys (h : Home registry scene w) :
    scene.keyOf w ∈ registry.workflowKeys [] := by
  apply Registry.workflowKeys_of_at? h.scene_in
  obtain ⟨key, ⟨document, location, openapi, nested⟩⟩ := scene
  exact List.mem_append_left _
    (List.mem_map.mpr ⟨w, (Document.workflow?_some h.found).1, rfl⟩)

theorem mem_workflows (h : Home registry scene w) : w ∈ registry.workflows := by
  apply Registry.workflows_of_at? h.scene_in
  obtain ⟨key, ⟨document, location, openapi, nested⟩⟩ := scene
  exact List.mem_append_left _ (Document.workflow?_some h.found).1

theorem eq_of_key {scene' : Scene} {w' : Workflow} (h : Home registry scene w)
    (h' : Home registry scene' w') (hkey : scene.keyOf w = scene'.keyOf w') :
    scene = scene' ∧ w = w' := by
  obtain ⟨hpath, hid⟩ := WorkflowKey.mk.inj hkey
  obtain ⟨key, home⟩ := scene
  obtain ⟨key', home'⟩ := scene'
  obtain rfl : key = key' := hpath
  obtain rfl : home = home' := Option.some.inj (h.scene_in.symm.trans h'.scene_in)
  refine ⟨rfl, Option.some.inj ?_⟩
  rw [← h.found, ← h'.found, hid]

end Home

namespace Run

theorem in_of_aim? {registry : Registry} {scene target : Scene} {reference id : String}
    (hscene : scene.In registry) (h : aim? scene reference = some (target, id)) :
    target.In registry := by
  unfold aim? at h
  split at h
  · obtain ⟨nested, hnested, htarget⟩ := Option.map_eq_some_iff.mp h
    obtain ⟨rfl, -⟩ := Prod.mk.inj htarget
    rw [Scene.In, Registry.at?_append, hscene, Option.bind_some]
    exact hnested
  · obtain ⟨rfl, -⟩ := Prod.mk.inj (Option.some.inj h)
    exact hscene

theorem home_of_locate {registry : Registry} {scene target : Scene} {reference : String}
    {called : Workflow} (hscene : scene.In registry)
    (h : locate scene reference = .ok (target, called)) : Home registry target called := by
  unfold locate at h
  split at h
  · rename_i found hfound
    obtain rfl : found = (target, called) := Except.ok.inj h
    obtain ⟨⟨place, id⟩, hplace, hcalled⟩ := Option.bind_eq_some_iff.mp hfound
    obtain ⟨w, hw, hpair⟩ := Option.map_eq_some_iff.mp hcalled
    obtain ⟨rfl, rfl⟩ := Prod.mk.inj hpair
    exact (in_of_aim? hscene hplace).home hw
  · cases h

inductive DependsOn (registry : Registry) : WorkflowKey → WorkflowKey → Prop where
  | intro {scene target : Scene} {w called : Workflow} {reference : String}
      (home : Home registry scene w) (named : reference ∈ w.dependsOn)
      (found : locate scene reference = .ok (target, called)) :
      DependsOn registry (scene.keyOf w) (target.keyOf called)

theorem DependsOn.located {registry : Registry} {scene : Scene} {w : Workflow} {key : WorkflowKey}
    (home : Home registry scene w) (h : DependsOn registry (scene.keyOf w) key) :
    ∃ reference ∈ w.dependsOn, ∃ target called,
      locate scene reference = .ok (target, called) ∧ key = target.keyOf called := by
  generalize hkey : scene.keyOf w = first at h
  obtain ⟨home', named, found⟩ := h
  obtain ⟨rfl, rfl⟩ := home.eq_of_key home' hkey
  exact ⟨_, named, _, _, found, rfl⟩

end Run
end Arazzo
