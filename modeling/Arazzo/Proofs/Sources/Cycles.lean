import Arazzo.Proofs.Sources.Rejected

/-! Loading as a whole: when it ends, and what comes of a source whose document is still open, which
is known by its place as that is written. -/

namespace Arazzo.Loader

variable {loader : Loader} {depth : Nat} {d : Document} {base place : Option Location}
  {visiting opened places : List String} {source : SourceDescription} {location : Location}
  {contents : Contents} {t t' t'' : Trace}

/-- Loading the document turns to this source, of the document itself or of one inside it that lies at
`place`; all that is named before it was loaded, and the places of the documents around it are
`opened`. -/
inductive Turns (loader : Loader) : Nat → Document → Option Location → List String → Trace →
    SourceDescription → Option Location → List String → Trace → Prop where
  | here {depth : Nat} {d : Document} {base : Option Location} {visiting : List String}
    {t t' : Trace} {before after : List SourceDescription} {source : SourceDescription}
    {contents : Contents} (split : d.sourceDescriptions = before ++ source :: after)
    (loaded : (before.foldlM (loader.addSource base visiting (loader.inside depth)) {}).run t =
      (.ok contents, t')) :
    Turns loader (depth + 1) d base visiting t source base visiting t'
  | inside {depth : Nat} {d inner : Document} {base place : Option Location}
    {visiting opened : List String} {t t' t'' : Trace} {outer source : SourceDescription}
    {own : Json} (meets : Meets loader depth d base visiting t outer own t')
    (kind : outer.kind = .arazzo)
    (opens : loader.nestedDocument outer.name (loader.place base outer) own = .ok inner)
    (rest : Turns loader depth inner (some (loader.place base outer))
      (visiting ++ [(loader.place base outer).text]) t' source place opened t'') :
    Turns loader (depth + 1) d base visiting t source place opened t''

theorem tree_cycle (hkind : source.kind = .arazzo)
    (hnone : Table.get? source.name loader.documents = none) (hopen : location.text ∈ visiting)
    (t : Trace) :
    (loader.tree visiting source location).run t =
      (.error (.cycle (visiting ++ [location.text])), t) := by
  unfold tree
  rw [hnone]
  dsimp only
  rw [if_pos ⟨hkind, hopen⟩]
  rfl

theorem exists_open_of_tree_cycle
    (h : (loader.tree visiting source location).run t = (.error (.cycle places), t')) :
    source.kind = .arazzo ∧ Table.get? source.name loader.documents = none ∧
      location.text ∈ visiting ∧ places = visiting ++ [location.text] ∧ t = t' := by
  unfold tree at h
  split at h
  · cases h
  · rename_i hnone
    dsimp only at h
    split at h
    · rename_i hopen
      obtain ⟨hcycle, rfl⟩ := Prod.mk.inj h
      obtain rfl := SourceError.cycle.inj (Except.error.inj hcycle)
      exact ⟨hopen.1, hnone, hopen.2, rfl, rfl⟩
    -- A file that is not found is told of in another way.
    · rcases cases_of_run_bind_error h with hread | ⟨text, t₁, -, hparse⟩
      · cases hread
      · split at hparse
        · cases hparse
        · cases hparse

theorem Turns.loadFrom_cycle (h : Turns loader depth d base visiting t source place opened t')
    (hkind : source.kind = .arazzo) (hnone : Table.get? source.name loader.documents = none)
    (hopen : (loader.place place source).text ∈ opened) :
    (loader.loadFrom depth d base visiting).run t =
      (.error (.cycle (opened ++ [(loader.place place source).text])), t') := by
  induction h with
  | @here depth d base visiting t t' before after source contents split loaded =>
    have hadd : (loader.addSource base visiting (loader.inside depth) contents source).run t' =
        (.error (.cycle (visiting ++ [(loader.place base source).text])), t') :=
      run_bind_error (tree_cycle hkind hnone hopen t')
    rw [loadFrom_succ, split]
    exact run_bind_error (run_foldlM_error loaded hadd)
  | @inside depth d inner base place visiting opened t t' t'' outer source own meets houter opens
      rest ih =>
    refine meets.loadFrom_error houter ?_
    unfold enter
    rw [opens]
    exact ih hkind hnone hopen

theorem nestedDocument_ne_cycle {name : String} {tree : Json} :
    loader.nestedDocument name location tree ≠ .error (.cycle places) := by
  rcases loader.nestedDocument_cases name location tree with
    ⟨-, inner, hinner⟩ | ⟨-, count, first, -, hrefused⟩
  · rw [hinner]
    exact nofun
  · rw [hrefused]
    exact nofun

theorem exists_turns_of_loadFrom_cycle
    (h : (loader.loadFrom depth d base visiting).run t = (.error (.cycle places), t'')) :
    ∃ source place opened, Turns loader depth d base visiting t source place opened t'' ∧
      source.kind = .arazzo ∧ Table.get? source.name loader.documents = none ∧
      (loader.place place source).text ∈ opened ∧
      places = opened ++ [(loader.place place source).text] := by
  induction depth generalizing d base visiting t with
  | zero =>
    unfold loadFrom at h
    cases h
  | succ depth ih =>
    rw [loadFrom_succ] at h
    rcases cases_of_run_bind_error h with hfold | ⟨contents, t', -, hdone⟩
    · obtain ⟨before, source, after, contents, t₁, split, loaded, hadd⟩ :=
        exists_of_run_foldlM_error hfold
      unfold addSource at hadd
      -- Either this source is the open one, or the cycle is met inside its document.
      rcases cases_of_run_bind_error hadd with htree | ⟨tree, t₂, htree, hinside⟩
      · obtain ⟨hkind, hnone, hopen, hplaces, rfl⟩ := exists_open_of_tree_cycle htree
        exact ⟨source, base, visiting, .here split loaded, hkind, hnone, hopen, hplaces⟩
      · cases hkind : source.kind with
        | openapi =>
          rw [hkind] at hinside
          cases hinside
        | arazzo =>
          rw [hkind] at hinside
          rcases cases_of_run_bind_error hinside with hinner | ⟨inner, t₃, hinner, hrest⟩
          · rw [run_except] at hinner
            exact absurd (Prod.mk.inj hinner).1 nestedDocument_ne_cycle
          · rw [run_except] at hinner
            obtain ⟨hopens, rfl⟩ := Prod.mk.inj hinner
            rcases cases_of_run_bind_error hrest with hload | ⟨nested, t₄, -, hdone⟩
            · obtain ⟨further, place, opened, turns, hfurther⟩ := ih hload
              have meets : Meets loader depth d base visiting t source tree t₂ :=
                ⟨before, after, contents, t₁, split, loaded, htree⟩
              exact ⟨further, place, opened, .inside meets hkind hopens turns, hfurther⟩
            · cases hdone
    · cases hdone

def Reads (t t' : Trace) : Prop := t.reads <+: t'.reads

instance : Std.Refl Reads := ⟨fun _ => List.prefix_rfl⟩

instance : Trans Reads Reads Reads := ⟨List.IsPrefix.trans⟩

theorem Reads.trans (h : Reads t t') (h' : Reads t' t'') : Reads t t'' := List.IsPrefix.trans h h'

theorem reads_readText (location : Location) (t : Trace) :
    Reads t ((loader.readText location).run t).2 := by
  cases location with
  | file path => exact List.prefix_append _ _
  | remote url =>
    obtain ⟨result, clock, hfetch⟩ :=
      loader.run_fetch ⟨"GET", url, [], [], loader.timeout, loader.maxBytes⟩ t
    show Reads t ((loader.readRemote url).run t).2
    unfold readRemote
    rw [StateT.run_bind, hfetch]
    cases result with
    | error error => exact List.prefix_rfl
    | ok response =>
      change Reads t (StateT.run (σ := Trace) (m := Id) (ite _ _ _) _).2
      split
      · exact List.prefix_rfl
      · exact List.prefix_rfl

theorem keeps_tree (visiting : List String) (source : SourceDescription) (location : Location) :
    Keeps Reads (loader.tree visiting source location) := by
  intro t
  unfold tree
  split
  · exact Keeps.of_pure _ t
  · dsimp only
    split
    · exact Keeps.of_throw _ t
    · refine .bind_lift ?_
      split
      · exact .of_pure (reads_readText location t)
      · exact .of_throw (reads_readText location t)

theorem keeps_addSource
    (h : ∀ inner location visiting, Keeps Reads (loader.inside depth inner location visiting))
    (contents : Contents) (source : SourceDescription) :
    Keeps Reads (loader.addSource base visiting (loader.inside depth) contents source) := by
  unfold addSource
  refine (keeps_tree _ _ _).bind fun tree => ?_
  cases source.kind with
  | openapi => exact .of_pure _
  | arazzo =>
    refine (Keeps.of_except _).bind fun inner => ?_
    exact (h inner _ _).bind fun registry => .of_pure _

theorem keeps_loadFrom (loader : Loader) (depth : Nat) (d : Document) (base : Option Location)
    (visiting : List String) : Keeps Reads (loader.loadFrom depth d base visiting) := by
  induction depth generalizing d base visiting with
  | zero =>
    unfold loadFrom
    exact .of_throw _
  | succ depth ih =>
    rw [loadFrom_succ]
    refine (Keeps.foldlM (fun contents source => ?_) _ _).bind fun contents => .of_pure _
    exact keeps_addSource (fun inner location visiting => ih inner (some location) visiting) _ _

theorem reads_of_split {before after : List SourceDescription}
    (split : d.sourceDescriptions = before ++ source :: after)
    (loaded : (before.foldlM (loader.addSource base visiting (loader.inside depth)) {}).run t =
      (.ok contents, t')) :
    Reads ((loader.addSource base visiting (loader.inside depth) contents source).run t').2
      ((loader.loadFrom (depth + 1) d base visiting).run t).2 := by
  have adds (contents : Contents) (source : SourceDescription) :
      Keeps Reads (loader.addSource base visiting (loader.inside depth) contents source) :=
    keeps_addSource (fun inner location visiting => keeps_loadFrom loader depth inner _ _) _ _
  have hrest : (d.sourceDescriptions.foldlM
      (loader.addSource base visiting (loader.inside depth)) {}).run t =
        ((source :: after).foldlM
          (loader.addSource base visiting (loader.inside depth)) contents).run t' := by
    rw [split]
    exact run_foldlM_append loaded
  have hadd : Reads ((loader.addSource base visiting (loader.inside depth) contents source).run t').2
      (((source :: after).foldlM
        (loader.addSource base visiting (loader.inside depth)) contents).run t').2 := by
    rw [List.foldlM_cons]
    exact Keeps.run_bind (fun contents => Keeps.foldlM adds contents after) t'
  rw [← hrest] at hadd
  rw [loadFrom_succ]
  exact hadd.trans (Keeps.run_bind (fun contents => .of_pure _) t)

theorem tree_read {path : String} (hnone : Table.get? source.name loader.documents = none)
    (hclosed : path ∉ visiting) (t : Trace) :
    ((loader.tree visiting source (.file path)).run t).2 = t.read path := by
  have hopen : ¬ (source.kind = .arazzo ∧ (Location.file path).text ∈ visiting) :=
    fun hopen => hclosed hopen.2
  refine Leads.final (P := fun t' => t' = t.read path) ?_
  unfold tree
  rw [hnone]
  dsimp only
  rw [if_neg hopen]
  refine .bind_lift ?_
  split
  · exact .of_pure rfl
  · exact .of_throw rfl

theorem keeps_enter (tree : Json) : Keeps Reads (loader.enter depth base visiting source tree) := by
  unfold enter
  exact (Keeps.of_except _).bind fun inner => keeps_loadFrom loader depth inner _ _

theorem Turns.reads (h : Turns loader depth d base visiting t source place opened t')
    (hkind : source.kind = .arazzo) (hnone : Table.get? source.name loader.documents = none)
    (hclosed : (loader.place place source).text ∉ opened) {path : String}
    (hfile : loader.place place source = .file path) :
    Reads (t'.read path) ((loader.loadFrom depth d base visiting).run t).2 := by
  induction h with
  | @here depth d base visiting t t' before after source contents split loaded =>
    rw [hfile] at hclosed
    have htree : ((loader.tree visiting source (loader.place base source)).run t').2 =
        t'.read path := by
      rw [hfile]
      exact tree_read hnone hclosed t'
    have hadd : Reads (t'.read path)
        ((loader.addSource base visiting (loader.inside depth) contents source).run t').2 := by
      rw [addSource_eq hkind, ← htree]
      exact Keeps.run_bind (fun tree => (keeps_enter tree).bind fun nested => .of_pure _) t'
    exact hadd.trans (reads_of_split split loaded)
  | @inside depth d inner base place visiting opened t t' t'' outer source own meets houter opens
      rest ih =>
    obtain ⟨before, after, contents, t₁, split, loaded, htree⟩ := meets
    have hadd : Reads ((loader.enter depth base visiting outer own).run t').2
        ((loader.addSource base visiting (loader.inside depth) contents outer).run t₁).2 := by
      rw [addSource_eq houter, run_bind_ok htree]
      exact Keeps.run_bind (fun nested => .of_pure _) t'
    have hinner : (loader.enter depth base visiting outer own).run t' =
        (loader.loadFrom depth inner (some (loader.place base outer))
          (visiting ++ [(loader.place base outer).text])).run t' := by
      unfold enter
      rw [opens]
      rfl
    rw [hinner] at hadd
    exact (ih hkind hnone hclosed hfile).trans (hadd.trans (reads_of_split split loaded))

/--
With any files and without a network, loading comes to an end at some depth, if no document that is
given in place of a source leads back to itself through such documents alone. Down to its own limit
it does the same as down to any greater depth. The check for cycles compares places as they are
written: a source of workflows whose place is open stops loading, and nothing more is read; a file
whose place is written otherwise is read, even if it is open.
-/
theorem load_settles {directory : String} {files : Table String}
    (hfiles : loader.files = Files.ofTable directory files) (offline : loader.Offline)
    (acyclic : ∀ name, ¬ Relation.TransGen loader.Nests name name) (d : Document) :
    (∃ depth, ∀ more, depth ≤ more → ∀ t,
      (loader.loadWithin more d).run t = (loader.loadWithin depth d).run t ∧
      ∀ e, ((loader.loadWithin depth d).run t).1 = .error e → ¬ e.IsUnending) ∧
    (∀ more, depthLimit ≤ more → ∀ t,
      (∃ e, ((loader.load d).run t).1 = .error e ∧ e.IsUnending) ∨
        (loader.load d).run t = (loader.loadWithin more d).run t) ∧
    ∀ depth base visiting t,
      (∀ source place opened t', Turns loader depth d base visiting t source place opened t' →
        source.kind = .arazzo → Table.get? source.name loader.documents = none →
        ((loader.place place source).text ∈ opened →
          (loader.loadFrom depth d base visiting).run t =
            (.error (.cycle (opened ++ [(loader.place place source).text])), t')) ∧
        ((loader.place place source).text ∉ opened →
          ∀ path, loader.place place source = .file path →
            t'.reads ++ [path] <+: ((loader.loadFrom depth d base visiting).run t).2.reads)) ∧
      ∀ places t', (loader.loadFrom depth d base visiting).run t = (.error (.cycle places), t') →
        ∃ source place opened, Turns loader depth d base visiting t source place opened t' ∧
          source.kind = .arazzo ∧ Table.get? source.name loader.documents = none ∧
          (loader.place place source).text ∈ opened ∧
          places = opened ++ [(loader.place place source).text] := by
  have hshort (path text : String) (h : loader.files.read path = .ok text) : path.length ≤ 4095 := by
    rw [hfiles] at h
    exact length_le_of_ofTable h
  refine ⟨?_, fun more hmore t => ?_, fun depth base visiting t => ⟨?_, ?_⟩⟩
  -- A depth that is enough stays enough: at a greater one loading does the same.
  · obtain ⟨depth, hdepth⟩ := ending offline (nests_wellFounded acyclic) hshort d
      (d.sourcePath.map .file) ((d.sourcePath.map Location.file).map Location.text).toList
    refine ⟨depth, fun more hmore t => ⟨?_, fun e he => ?_⟩⟩
    · exact (agrees_of_le hmore d _ _).run_eq (hdepth t) fun _ _ h => h
    · have hrun : (loader.loadWithin depth d).run t =
          (.error e, ((loader.loadWithin depth d).run t).2) := Prod.ext he rfl
      exact (hdepth t).of_error hrun
  · rw [load_eq_loadWithin]
    exact agrees_of_le hmore d _ _ t
  · intro source place opened t' turns hkind hnone
    exact ⟨turns.loadFrom_cycle hkind hnone, fun hclosed path => turns.reads hkind hnone hclosed⟩
  · intro places t' hcycle
    exact exists_turns_of_loadFrom_cycle hcycle

theorem load_settles_onward :
    let loader := namingLoader "away" "away.json" [("away.json", "[]")]
    loader.Offline ∧ (∀ name, ¬ Relation.TransGen loader.Nests name name) ∧
    ∃ d, (Document.parse false none (namingTree "flows" "flows.json")).usable? = some d ∧
      ∃ depth, ∀ more, depth ≤ more → ∀ t,
        (loader.loadWithin more d).run t = (loader.loadWithin depth d).run t := by
  intro loader
  -- The given document's own source is not one that a document is given for.
  have nothing (inner outer : String) : ¬ loader.Nests inner outer := by
    rintro ⟨⟨given, hgiven⟩, tree, place, d, source, hsource, htree, hd, -, rfl⟩
    have hflows : source.name = "flows" :=
      (Prod.mk.inj (List.mem_singleton.1 (Table.mem_of_get? hgiven))).1
    obtain ⟨rfl, rfl⟩ := Prod.mk.inj (List.mem_singleton.1 (Table.mem_of_get? htree))
    obtain ⟨inner, hinner, hnames⟩ := usable_naming_away
    obtain ⟨path, hopen⟩ : ∃ path, loader.nestedDocument "flows" place
        (namingTree "away" "away.json") = .ok { inner with sourcePath := path } :=
      nestedDocument_of_usable hinner
    obtain rfl := Except.ok.inj (hd.symm.trans hopen)
    have hmem : (source.name, source.kind) ∈ names inner := List.mem_map_of_mem hsource
    rw [hnames, hflows] at hmem
    exact absurd (Prod.mk.inj (List.mem_singleton.1 hmem)).1 (by decide)
  have acyclic (name : String) : ¬ Relation.TransGen loader.Nests name name := by
    intro h
    obtain ⟨next, -, hnests⟩ := Relation.TransGen.tail'_iff.1 h
    exact nothing next name hnests
  have offline : loader.Offline := offline_naming
  obtain ⟨d, hd, -⟩ := usable_naming_flows
  obtain ⟨⟨depth, hdepth⟩, -⟩ := load_settles rfl offline acyclic d
  exact ⟨offline, acyclic, d, hd, depth, fun more hmore t => (hdepth more hmore t).1⟩

def respelledTree : Json := namingTree "flows" "./flows.json"

def respelledLoader : Loader :=
  { circleLoader with
    documents := []
    files := Files.ofTable "/" [("flows.json", respelledTree.render)] }

/-- The file is open under one name, and is read again under another one. -/
example : (Document.parse false (some "flows.json") respelledTree).usable?.map
    (fun d => ((respelledLoader.loadWithin 1 d).run {}).2.reads) =
      some ["./flows.json"] := by
  decide +kernel

theorem circle_leads (depth : Nat) {d : Document} (hd : names d = [("flows", .arazzo)])
    (base : Option Location) (visiting : List String) (t : Trace) :
    Leads (circleLoader.loadFrom depth d base visiting) t (fun _ _ => False)
      fun e _ => e.IsUnending := by
  induction depth generalizing d base visiting t with
  | zero =>
    rw [loadFrom]
    exact .of_throw trivial
  | succ depth ih =>
    obtain ⟨source, hsources, hname, hkind⟩ := exists_source_of_names hd
    obtain ⟨inner, hinner, hnames⟩ := usable_naming_flows
    obtain ⟨path, hnested⟩ : ∃ path, circleLoader.nestedDocument source.name
        (circleLoader.place base source) (namingTree "flows" "flows.json") =
          .ok { inner with sourcePath := path } :=
      nestedDocument_of_usable hinner
    have hgiven : Table.get? source.name circleLoader.documents =
        some (namingTree "flows" "flows.json") := by
      rw [hname]
      rfl
    have hadd : Leads (circleLoader.addSource base visiting
        (fun d location visiting => circleLoader.loadFrom depth d (some location) visiting) {} source)
        t (fun _ _ => False) fun e _ => e.IsUnending := by
      unfold addSource
      dsimp only
      rw [tree_given hgiven, pure_bind, hkind]
      dsimp only
      have hagain : names { inner with sourcePath := path } = [("flows", .arazzo)] := hnames
      have hpure : (liftM (Except.ok { inner with sourcePath := path } : Except SourceError Document) :
          Loading Document) = pure { inner with sourcePath := path } := rfl
      rw [hnested, hpure, pure_bind]
      exact (ih hagain _ _ _).bind fun _ _ h => False.elim h
    rw [loadFrom, hsources]
    exact Leads.bind (hadd.bind fun _ _ h => False.elim h) fun _ _ h => False.elim h

/-- The document is read without a finding, but however deep it is followed, it does not end. -/
theorem circle_unending :
    let outcome := Document.parse false none (namingTree "flows" "flows.json")
    circleLoader.Offline ∧ outcome.diagnostics = [] ∧ ∃ d, outcome.usable? = some d ∧
      ∀ depth t, ∃ e, ((circleLoader.loadWithin depth d).run t).1 = .error e ∧ e.IsUnending := by
  intro outcome
  have hquiet : outcome.diagnostics.isEmpty = true := by
    decide +kernel
  obtain ⟨d, hd, hnames⟩ := usable_naming_flows
  refine ⟨offline_naming, List.isEmpty_iff.1 hquiet, d, hd, fun depth t => ?_⟩
  have hleads : Leads (circleLoader.loadWithin depth d) t (fun _ _ => False) fun e _ => e.IsUnending :=
    circle_leads depth hnames _ _ t
  rcases hrun : (circleLoader.loadWithin depth d).run t with ⟨e | registry, t'⟩
  · exact ⟨e, rfl, hleads.of_error hrun⟩
  · exact (hleads.of_ok hrun).elim

end Loader
end Arazzo
