import Libdeno.Library.Worklist
import Libdeno.Snapshot.PackageHash

/-!
# Libdeno.Snapshot.DependencyGraph

`graph_identity` of `snapshot_compat.py`: the consumer's package is found, then what it reaches
by edges that are not only for development, `libdeno` in that graph and the engine's packages
in the graph of `libdeno`; the hashes of the packages selected there are hashed in the order of
their names. The order of the metadata does not matter, nor do development edges and the
packages behind them.
-/

namespace Libdeno.Snapshot

open Lines Worklist

/-! ### The metadata -/

/-- The kind of a dependency; `null` is the normal one. -/
inductive DepKind where
  | normal
  | build
  | dev
  deriving DecidableEq, Repr

/-- An edge of the graph. -/
structure Dep where
  pkg : Str
  depKinds : List DepKind

/-- A node of `resolve`. -/
structure Node where
  id : Str
  deps : List Dep
  features : List Str

/-- A package of the metadata. -/
structure MetadataPackage extends Package where
  id : Str
  manifestPath : Str

/-- `cargo metadata`. The ids are those of the dictionaries the script makes of the packages and
the nodes, and every edge leads to a package. -/
structure Metadata where
  packages : List MetadataPackage
  nodes : List Node
  root : Option Str
  workspaceRoot : Str
  workspaceDefaultMembers : List Str
  packages_distinct : (packages.map (·.id)).Nodup
  nodes_distinct : (nodes.map (·.id)).Nodup
  targets : ∀ node ∈ nodes, ∀ dep ∈ node.deps, dep.pkg ∈ packages.map (·.id)

namespace Metadata

variable (m : Metadata)

/-- `packages[package_id]`. -/
def package? (id : Str) : Option MetadataPackage := m.packages.find? (·.id = id)

/-- `nodes.get(package_id, {}).get("deps", [])`. -/
def deps (id : Str) : List Dep :=
  match m.nodes.find? (·.id = id) with
  | none => []
  | some node => node.deps

/-- `nodes.get(package_id, {}).get("features", [])`. -/
def features (id : Str) : List Str :=
  match m.nodes.find? (·.id = id) with
  | none => []
  | some node => node.features

end Metadata

/-- Snapshot inputs are runtime and build dependencies. -/
def Dep.followed (dep : Dep) : Bool := dep.depKinds.any fun kind => kind = .normal || kind = .build

/-- The edges that `reachable` follows. -/
def Metadata.graph (m : Metadata) : Graph Str where
  keys := m.nodes.map (·.id)
  succ id := ((m.deps id).filter Dep.followed).map (·.pkg)
  succ_eq_nil id h := by
    have hnone : m.nodes.find? (·.id = id) = none := by
      rw [List.find?_eq_none]
      rintro node mem heq
      exact h (List.mem_map.mpr ⟨node, mem, by simpa using heq⟩)
    simp [Metadata.deps, hnone]

/-- `reachable`. -/
def Metadata.reachable (m : Metadata) (start : Str) : List Str := m.graph.reachable start

/-! ### The consumer -/

/-- What the script uses of `pathlib`. -/
structure Paths where
  resolve : Str → Str
  join : Str → Str → Str

/-- `consumer_package`. -/
def consumerPackage (paths : Paths) (m : Metadata) : Option Str → Except String (Option Str)
  | none => .ok m.root
  | some manifest =>
      let path := paths.resolve manifest
      match (m.packages.filter fun p => paths.resolve p.manifestPath = path).map (·.id) with
      | [root] =>
          let workspaceManifest := paths.join (paths.resolve m.workspaceRoot) (lit "Cargo.toml")
          if path = paths.resolve workspaceManifest ∧
              m.workspaceDefaultMembers.toFinset ≠ {root} then
            .error "workspace default members differ from this manifest; use an explicit member manifest"
          else .ok (some root)
      | _ =>
          .error "manifest must identify exactly one Cargo package; use a member manifest, not a virtual workspace"

/-! ### The identity -/

/-- The order in which a set is gone through. -/
structure SetOrder where
  order : List Str → List Str
  perm : ∀ xs, (order xs).Perm xs

/-- `package["name"].replace("-", "_")`. -/
def MetadataPackage.cratesName (p : MetadataPackage) : Str :=
  p.name.map fun c => if c = '-' then '_' else c

/-- The packages of a set of ids. -/
def Metadata.lookup (m : Metadata) (ids : List Str) : List MetadataPackage :=
  ids.filterMap m.package?

/-- The one package that was looked for. -/
def onlyPackage (label : String) : List MetadataPackage → Except String MetadataPackage
  | [p] => .ok p
  | ps => .error s!"expected exactly one reachable {label} package, found {ps.length}"

/-- The packages that belong to the snapshot. -/
def belongs (name : Str) : Bool :=
  (lit "deno_").isPrefixOf name || name = lit "v8" || name = lit "serde_v8"

/-- The loop that fills `selected`. -/
def selectPackages : List (Str × MetadataPackage) → List MetadataPackage →
    Except String (List (Str × MetadataPackage))
  | selected, [] => .ok selected
  | selected, p :: ps =>
      if belongs p.cratesName then
        if p.cratesName ∈ selected.map Prod.fst then
          .error s!"multiple reachable {String.ofList p.cratesName} packages; snapshot identity is ambiguous"
        else selectPackages (selected ++ [(p.cratesName, p)]) ps
      else selectPackages selected ps

/-- The packages every identity needs, sorted. -/
def requiredPackages : List Str := [lit "deno_core", lit "deno_node", lit "deno_runtime"]

/-- `repr` of a list of names. -/
def listRepr (names : List Str) : String :=
  "[" ++ ", ".intercalate (names.map fun name => "'" ++ String.ofList name ++ "'") ++ "]"

/-- `sorted(selected)`. -/
def sortSelected (selected : List (Str × MetadataPackage)) : List (Str × MetadataPackage) :=
  selected.insertionSort fun a b => a.1 ≤ b.1

/-- `TRANSPORT_FEATURES.get(name, set())`. -/
def transportFeatures (name : Str) : Finset Str :=
  if name = lit "deno_runtime" then {lit "snapshot"} else ∅

section Identity

variable (sha256 : List UInt8 → Digest)

/-- The loop that fills the digest. -/
def identityStream (features : Str → Finset Str) :
    List UInt8 → List (Str × MetadataPackage) → Except String (List UInt8)
  | stream, [] => .ok stream
  | stream, (name, p) :: selected =>
      match put stream (encodeUtf8 name) with
      | .error e => .error e
      | .ok stream =>
          match packageHash sha256 p.toPackage (features p.id \ transportFeatures name) with
          | .error e => .error e
          | .ok hash =>
              match put stream (encodeUtf8 hash.text) with
              | .error e => .error e
              | .ok stream => identityStream features stream selected

/-- `graph_identity`, once the snapshot's graph is known. -/
def selectedIdentity (m : Metadata) (snapshotGraph : List MetadataPackage) :
    Except String Digest :=
  match selectPackages [] snapshotGraph with
  | .error e => .error e
  | .ok selected =>
      let missing := requiredPackages.filter fun name => name ∉ selected.map Prod.fst
      if missing ≠ [] then
        .error s!"Cargo dependency graph does not reach required packages: {listRepr missing}"
      else
        match identityStream sha256 (fun id => (m.features id).toFinset) []
            (sortSelected selected) with
        | .error e => .error e
        | .ok stream => .ok (sha256 stream)

/-- `graph_identity`, from the consumer's package on. -/
def identityFrom (sets : SetOrder) (m : Metadata) (root : Str) : Except String Digest :=
  let consumerGraph := m.lookup (sets.order (m.reachable root))
  match onlyPackage "libdeno" (consumerGraph.filter (·.name = lit "libdeno")) with
  | .error e => .error e
  | .ok libdeno =>
      let libdenoGraph := m.lookup (sets.order (m.reachable libdeno.id))
      match onlyPackage "deno_core" (libdenoGraph.filter (·.cratesName = lit "deno_core")) with
      | .error e => .error e
      | .ok core =>
          match onlyPackage "deno_runtime"
              (libdenoGraph.filter (·.cratesName = lit "deno_runtime")) with
          | .error e => .error e
          | .ok runtime =>
              selectedIdentity sha256 m
                (m.lookup (sets.order (m.reachable core.id ∪ m.reachable runtime.id)))

/-- `graph_identity`. -/
def graphIdentity (sets : SetOrder) (paths : Paths) (m : Metadata) (manifest : Option Str) :
    Except String Digest :=
  match consumerPackage paths m manifest with
  | .error e => .error e
  | .ok root =>
      match root.bind m.package? with
      | none =>
          .error "Cargo metadata has no single consumer package root; use its package manifest"
      | some package => identityFrom sha256 sets m package.id

end Identity

/-! ### Lookups -/

/-- A key that occurs once is found where it is. -/
theorem find?_key_eq_some {α κ : Type*} [DecidableEq κ] {key : α → κ} {xs : List α}
    (distinct : (xs.map key).Nodup) {k : κ} {x : α} :
    xs.find? (fun x => key x = k) = some x ↔ x ∈ xs ∧ key x = k := by
  constructor
  · intro h
    exact ⟨List.mem_of_find?_eq_some h, by simpa using List.find?_some h⟩
  · rintro ⟨mem, rfl⟩
    cases hfound : xs.find? (fun y => key y = key x) with
    | none =>
        have hne := List.find?_eq_none.mp hfound x mem
        simp at hne
    | some y =>
        have hy : key y = key x := by simpa using List.find?_some hfound
        rw [List.inj_on_of_nodup_map distinct (List.mem_of_find?_eq_some hfound) mem hy]

theorem Metadata.package?_eq_some {m : Metadata} {id : Str} {p : MetadataPackage} :
    m.package? id = some p ↔ p ∈ m.packages ∧ p.id = id :=
  find?_key_eq_some m.packages_distinct

theorem Metadata.package?_isSome {m : Metadata} {id : Str} :
    (m.package? id).isSome ↔ id ∈ m.packages.map (·.id) := by
  rw [Option.isSome_iff_exists, List.mem_map]
  exact exists_congr fun p => Metadata.package?_eq_some

theorem Metadata.node_eq_some {m : Metadata} {id : Str} {node : Node} :
    m.nodes.find? (·.id = id) = some node ↔ node ∈ m.nodes ∧ node.id = id :=
  find?_key_eq_some m.nodes_distinct

theorem Metadata.edge_iff {m : Metadata} {a b : Str} :
    m.graph.Edge a b ↔ ∃ node ∈ m.nodes, node.id = a ∧
      ∃ dep ∈ node.deps, dep.followed = true ∧ dep.pkg = b := by
  have hsucc : m.graph.Edge a b ↔ ∃ dep ∈ m.deps a, dep.followed = true ∧ dep.pkg = b := by
    simp [Graph.Edge, Metadata.graph, and_assoc]
  rw [hsucc, Metadata.deps]
  cases hfound : m.nodes.find? (·.id = a) with
  | none =>
      refine ⟨fun ⟨dep, mem, _⟩ => absurd mem List.not_mem_nil, ?_⟩
      rintro ⟨node, mem, hid, -⟩
      exact absurd hid (by simpa using List.find?_eq_none.mp hfound node mem)
  | some node =>
      obtain ⟨mem, hid⟩ := Metadata.node_eq_some.mp hfound
      constructor
      · rintro ⟨dep, hdep⟩
        exact ⟨node, mem, hid, dep, hdep⟩
      · rintro ⟨other, hother, hid', dep, hdep⟩
        rw [Option.some.inj (hfound.symm.trans (Metadata.node_eq_some.mpr ⟨hother, hid'⟩))]
        exact ⟨dep, hdep⟩

/-- Every id the script looks up is there. -/
theorem Metadata.reachable_present {m : Metadata} {start id : Str}
    (hstart : (m.package? start).isSome) (h : id ∈ m.reachable start) :
    (m.package? id).isSome := by
  have path := Graph.mem_reachable_iff.mp h
  induction path with
  | refl => exact hstart
  | tail _ edge ih =>
      obtain ⟨node, mem, -, dep, hdep, -, rfl⟩ := Metadata.edge_iff.mp edge
      exact Metadata.package?_isSome.mpr (m.targets node mem dep hdep)

/-! ### Selecting packages -/

theorem toOption_eq_some {ε α : Type*} {x : Except ε α} {a : α} :
    x.toOption = some a ↔ x = .ok a := by
  cases x <;> simp [Except.toOption]

/-- The packages that are selected, under their names. -/
def chosen (ps : List MetadataPackage) : List (Str × MetadataPackage) :=
  (ps.filter fun p => belongs p.cratesName).map fun p => (p.cratesName, p)

/-- All of them are selected, unless two share a name. -/
theorem selectPackages_eq {selected : List (Str × MetadataPackage)} (ps : List MetadataPackage)
    (distinct : (selected.map Prod.fst).Nodup) :
    (selectPackages selected ps).toOption =
      if ((selected ++ chosen ps).map Prod.fst).Nodup then some (selected ++ chosen ps)
      else none := by
  induction ps generalizing selected with
  | nil => simp [selectPackages, chosen, distinct, Except.toOption]
  | cons p ps ih =>
      rw [selectPackages]
      by_cases hbelongs : belongs p.cratesName = true
      · have hchosen : selected ++ chosen (p :: ps) =
            (selected ++ [(p.cratesName, p)]) ++ chosen ps := by
          simp [chosen, hbelongs]
        rw [if_pos hbelongs, hchosen]
        split_ifs with hpresent hnodup hnodup
        · -- A name that was selected before stays there twice.
          rw [List.map_append, List.map_append] at hnodup
          have hboth := List.disjoint_of_nodup_append (List.nodup_append.mp hnodup).1
          exact absurd (by simp) (hboth hpresent)
        · rfl
        · rw [ih (List.Nodup.of_append_left (by rwa [List.map_append] at hnodup)), if_pos hnodup]
        · by_cases hkeys : ((selected ++ [(p.cratesName, p)]).map Prod.fst).Nodup
          · rw [ih hkeys, if_neg hnodup]
          · refine absurd ?_ hkeys
            rw [List.map_append]
            exact distinct.append (by simp) (by simpa using hpresent)
      · have hchosen : chosen (p :: ps) = chosen ps := by simp [chosen, hbelongs]
        rw [if_neg hbelongs, hchosen, ih distinct]

/-- Sorting by names that are distinct forgets the order. -/
theorem sortSelected_perm {xs ys : List (Str × MetadataPackage)} (h : xs.Perm ys)
    (distinct : (xs.map Prod.fst).Nodup) : sortSelected xs = sortSelected ys := by
  have hperm : (sortSelected xs).Perm (sortSelected ys) :=
    (List.perm_insertionSort _ xs).trans (h.trans (List.perm_insertionSort _ ys).symm)
  refine hperm.eq_of_pairwise ?_ (List.pairwise_insertionSort _ _)
    (List.pairwise_insertionSort _ _)
  intro a b ha hb hab hba
  have ha' : a ∈ xs := (List.perm_insertionSort _ xs).mem_iff.mp ha
  have hb' : b ∈ xs := h.mem_iff.mpr ((List.perm_insertionSort _ ys).mem_iff.mp hb)
  exact List.inj_on_of_nodup_map distinct ha' hb' (le_antisymm hab hba)

/-! ### What the identity depends on -/

/-- Two graphs agree on a set of packages that no followed edge leaves. -/
structure Agree (m m' : Metadata) (s : Set Str) : Prop where
  closed : ∀ a ∈ s, ∀ b, m.graph.Edge a b → b ∈ s
  edges : ∀ a ∈ s, ∀ b, m.graph.Edge a b ↔ m'.graph.Edge a b
  packages : ∀ a ∈ s, m.package? a = m'.package? a
  features : ∀ a ∈ s, (m.features a).toFinset = (m'.features a).toFinset

section Congruence

variable {sha256 : List UInt8 → Digest} {m m' : Metadata} {s : Set Str}

theorem Agree.reachable_perm (agree : Agree m m' s) {start : Str} (h : start ∈ s) :
    (m.reachable start).Perm (m'.reachable start) :=
  Graph.reachable_perm h agree.closed agree.edges

theorem Agree.reachable_subset (agree : Agree m m' s) {start a : Str} (h : start ∈ s)
    (ha : a ∈ m.reachable start) : a ∈ s :=
  Graph.reachable_subset h agree.closed ha

/-- The same ids in two orders are the same packages. -/
theorem Agree.lookup_perm (agree : Agree m m' s) {ids ids' : List Str} (h : ids.Perm ids')
    (hs : ∀ id ∈ ids, id ∈ s) : (m.lookup ids).Perm (m'.lookup ids') := by
  have hsame : m.lookup ids = m'.lookup ids :=
    List.filterMap_congr fun id mem => agree.packages id (hs id mem)
  rw [hsame]
  exact h.filterMap _

theorem Metadata.mem_lookup {ids : List Str} {p : MetadataPackage} (h : p ∈ m.lookup ids) :
    p.id ∈ ids := by
  obtain ⟨id, mem, hp⟩ := List.mem_filterMap.mp h
  rwa [(Metadata.package?_eq_some.mp hp).2]

theorem onlyPackage_perm (label : String) {ps ps' : List MetadataPackage} (h : ps.Perm ps') :
    onlyPackage label ps = onlyPackage label ps' := by
  have hlength := h.length_eq
  cases ps with
  | nil => rw [List.nil_perm.mp h]
  | cons p ps =>
      cases ps with
      | nil => rw [List.singleton_perm.mp h]
      | cons q ps =>
          cases ps' with
          | nil => cases hlength
          | cons p' ps' =>
              cases ps' with
              | nil => cases hlength
              | cons q' ps' => rw [onlyPackage, onlyPackage, hlength] <;> simp

theorem onlyPackage_mem {label : String} {ps : List MetadataPackage} {p : MetadataPackage}
    (h : onlyPackage label ps = .ok p) : p ∈ ps := by
  rw [onlyPackage.eq_def] at h
  split at h
  · rw [Except.ok.injEq] at h
    simp [h]
  · cases h

/-- The digest takes the features of the packages it hashes, and no others. -/
theorem identityStream_congr {f f' : Str → Finset Str} {stream : List UInt8}
    {selected : List (Str × MetadataPackage)}
    (same : ∀ entry ∈ selected, f entry.2.id = f' entry.2.id) :
    identityStream sha256 f stream selected = identityStream sha256 f' stream selected := by
  induction selected generalizing stream with
  | nil => rfl
  | cons entry selected ih =>
      obtain ⟨hentry, hrest⟩ := List.forall_mem_cons.mp same
      simp only [identityStream, hentry, ih hrest]

/-- One set of packages in two orders has one identity. -/
theorem Agree.selectedIdentity_perm (agree : Agree m m' s) {ps ps' : List MetadataPackage}
    (h : ps.Perm ps') (hs : ∀ p ∈ ps, p.id ∈ s) :
    (selectedIdentity sha256 m ps).toOption = (selectedIdentity sha256 m' ps').toOption := by
  have hchosen : (chosen ps).Perm (chosen ps') := (h.filter _).map _
  have hselect : (selectPackages [] ps).toOption = _ := selectPackages_eq ps List.nodup_nil
  have hselect' : (selectPackages [] ps').toOption = _ := selectPackages_eq ps' List.nodup_nil
  rw [List.nil_append] at hselect hselect'
  -- Sorting forgets the order of distinct names, and a name chosen twice is an error both ways.
  by_cases distinct : ((chosen ps).map Prod.fst).Nodup
  · have distinct' := (hchosen.map Prod.fst).nodup_iff.mp distinct
    rw [if_pos distinct, toOption_eq_some] at hselect
    rw [if_pos distinct', toOption_eq_some] at hselect'
    have hmissing : requiredPackages.filter (fun name => name ∉ (chosen ps).map Prod.fst) =
        requiredPackages.filter fun name => name ∉ (chosen ps').map Prod.fst := by
      refine List.filter_congr fun name _ => ?_
      simp only [(hchosen.map Prod.fst).mem_iff]
    have hfeatures : ∀ entry ∈ sortSelected (chosen ps'),
        (m.features entry.2.id).toFinset = (m'.features entry.2.id).toFinset := by
      intro entry mem
      have mem' := hchosen.mem_iff.mpr ((List.perm_insertionSort _ _).mem_iff.mp mem)
      obtain ⟨p, hp, rfl⟩ := List.mem_map.mp mem'
      exact agree.features _ (hs p (List.mem_of_mem_filter hp))
    have hstream : identityStream sha256 (fun id => (m.features id).toFinset) []
        (sortSelected (chosen ps')) = identityStream sha256
          (fun id => (m'.features id).toFinset) [] (sortSelected (chosen ps')) :=
      identityStream_congr hfeatures
    simp only [selectedIdentity, hselect, hselect', hmissing, sortSelected_perm hchosen distinct,
      hstream]
  · have distinct' := mt (hchosen.map Prod.fst).nodup_iff.mpr distinct
    rw [if_neg distinct] at hselect
    rw [if_neg distinct'] at hselect'
    rw [selectedIdentity, selectedIdentity]
    cases hps : selectPackages [] ps with
    | ok selected =>
        rw [hps] at hselect
        cases hselect
    | error e =>
        cases hps' : selectPackages [] ps' with
        | ok selected =>
            rw [hps'] at hselect'
            cases hselect'
        | error e => rfl

/-- **Graphs that agree on a closed set have one identity from its packages.** -/
theorem Agree.identityFrom_eq (agree : Agree m m' s) (sets sets' : SetOrder) {root : Str}
    (hroot : root ∈ s) :
    (identityFrom sha256 sets m root).toOption = (identityFrom sha256 sets' m' root).toOption := by
  have hgraph : ∀ {ids ids' : List Str}, ids.Perm ids' → (∀ id ∈ ids, id ∈ s) →
      (m.lookup (sets.order ids)).Perm (m'.lookup (sets'.order ids')) := by
    intro ids ids' h hs
    refine agree.lookup_perm ((sets.perm ids).trans (h.trans (sets'.perm ids').symm)) ?_
    exact fun id mem => hs id ((sets.perm ids).mem_iff.mp mem)
  have hids : ∀ {ids : List Str} {p : MetadataPackage}, p ∈ m.lookup (sets.order ids) →
      p.id ∈ ids :=
    fun mem => (sets.perm _).mem_iff.mp (Metadata.mem_lookup mem)
  -- Each package is looked for in two lists that are permutations of each other.
  have hconsumer := hgraph (agree.reachable_perm hroot) fun id => agree.reachable_subset hroot
  rw [identityFrom, identityFrom,
    ← onlyPackage_perm "libdeno" (hconsumer.filter (·.name = lit "libdeno"))]
  cases hlibdeno : onlyPackage "libdeno"
      ((m.lookup (sets.order (m.reachable root))).filter (·.name = lit "libdeno")) with
  | error e => rfl
  | ok libdeno =>
      have hin : libdeno.id ∈ s := agree.reachable_subset hroot
        (hids (List.mem_of_mem_filter (onlyPackage_mem hlibdeno)))
      have hlibdenoGraph := hgraph (agree.reachable_perm hin) fun id => agree.reachable_subset hin
      have hroots : ∀ {label name : _} {p : MetadataPackage}, onlyPackage label
          ((m.lookup (sets.order (m.reachable libdeno.id))).filter (·.cratesName = name)) =
            .ok p → p.id ∈ s := by
        intro label name p h
        exact agree.reachable_subset hin (hids (List.mem_of_mem_filter (onlyPackage_mem h)))
      simp only [← onlyPackage_perm "deno_core"
          (hlibdenoGraph.filter (·.cratesName = lit "deno_core")),
        ← onlyPackage_perm "deno_runtime"
          (hlibdenoGraph.filter (·.cratesName = lit "deno_runtime"))]
      cases hcore : onlyPackage "deno_core"
          ((m.lookup (sets.order (m.reachable libdeno.id))).filter
            (·.cratesName = lit "deno_core")) with
      | error e => rfl
      | ok core =>
          cases hruntime : onlyPackage "deno_runtime"
              ((m.lookup (sets.order (m.reachable libdeno.id))).filter
                (·.cratesName = lit "deno_runtime")) with
          | error e => rfl
          | ok runtime =>
              have hunion : ∀ id ∈ m.reachable core.id ∪ m.reachable runtime.id, id ∈ s := by
                intro id mem
                rcases List.mem_union_iff.mp mem with mem | mem
                · exact agree.reachable_subset (hroots hcore) mem
                · exact agree.reachable_subset (hroots hruntime) mem
              refine agree.selectedIdentity_perm (hgraph ?_ hunion) fun p mem =>
                hunion _ (hids mem)
              exact (agree.reachable_perm (hroots hcore)).union
                (agree.reachable_perm (hroots hruntime))

end Congruence

/-! ### Moves that change nothing -/

/-- A node with its dependencies and its features in another order. -/
structure Node.Reordered (a b : Node) : Prop where
  id : a.id = b.id
  deps : a.deps.Perm b.deps
  features : a.features.Perm b.features

/-- A node with more edges, all of whose kinds are for development. -/
structure Node.DevExtended (a b : Node) : Prop where
  id : a.id = b.id
  deps : ∃ added, b.deps = a.deps ++ added ∧
    ∀ dep ∈ added, ∀ kind ∈ dep.depKinds, kind = DepKind.dev
  features : a.features = b.features

/-- The metadata are of one workspace. -/
structure SameWorkspace (m m' : Metadata) : Prop where
  root : m.root = m'.root
  workspaceRoot : m.workspaceRoot = m'.workspaceRoot
  members : m.workspaceDefaultMembers = m'.workspaceDefaultMembers

/-- The moves: another order of the packages, the nodes, the dependencies and the features; or
development edges out of the nodes, and packages behind them, with nodes of their own. None of
these packages is the root, or the one of the given manifest. -/
inductive Rearranged (paths : Paths) (manifest : Option Str) (m m' : Metadata) : Prop
  | reorder (workspace : SameWorkspace m m') (packages : m.packages.Perm m'.packages)
      (nodes : ∃ ns, m.nodes.Perm ns ∧ List.Forall₂ Node.Reordered ns m'.nodes)
  | addDev (workspace : SameWorkspace m m') (newPackages : List MetadataPackage)
      (packages : m'.packages = m.packages ++ newPackages)
      (old new : List Node) (nodes : m'.nodes = old ++ new)
      (extended : List.Forall₂ Node.DevExtended m.nodes old)
      (fresh : ∀ node ∈ new, node.id ∉ m.packages.map (·.id))
      (root : ∀ p ∈ newPackages, m.root ≠ some p.id)
      (manifests : ∀ p ∈ newPackages, ∀ path ∈ manifest,
        paths.resolve p.manifestPath ≠ paths.resolve path)

section Moves

variable {paths : Paths} {manifest : Option Str} {m m' : Metadata}

theorem Metadata.edge_iff_deps {a b : Str} :
    m.graph.Edge a b ↔ ∃ dep ∈ m.deps a, dep.followed = true ∧ dep.pkg = b := by
  simp [Graph.Edge, Metadata.graph, and_assoc]

/-- Lookups in lists that are related element by element are related. -/
theorem find?_forall₂ {R : Node → Node → Prop} (ids : ∀ a b, R a b → a.id = b.id)
    {ns ns' : List Node} (h : List.Forall₂ R ns ns') (id : Str) :
    Option.Rel R (ns.find? (·.id = id)) (ns'.find? (·.id = id)) := by
  induction h with
  | nil => exact .none
  | @cons a b ns ns' hab _ ih =>
      by_cases hid : a.id = id
      · have hid' : b.id = id := by rw [← ids a b hab, hid]
        simpa [List.find?_cons, hid, hid'] using Option.Rel.some hab
      · have hid' : b.id ≠ id := by rwa [← ids a b hab]
        simpa [List.find?_cons, hid, hid'] using ih

/-- A dictionary does not depend on the order it was filled in. -/
theorem find?_perm {α : Type*} {key : α → Str} {xs ys : List α} (h : xs.Perm ys)
    (distinct : (xs.map key).Nodup) (k : Str) :
    xs.find? (fun x => key x = k) = ys.find? fun x => key x = k := by
  have distinct' := (h.map key).nodup_iff.mp distinct
  ext x
  rw [find?_key_eq_some distinct, find?_key_eq_some distinct', h.mem_iff]

/-- Nodes that are related have related dependencies and features. -/
theorem deps_features_of_rel {R : Node → Node → Prop} {id : Str}
    (h : Option.Rel R (m.nodes.find? (·.id = id)) (m'.nodes.find? (·.id = id))) :
    (m.deps id = [] ∧ m'.deps id = [] ∧ m.features id = [] ∧ m'.features id = []) ∨
      ∃ node node', R node node' ∧ m.deps id = node.deps ∧ m'.deps id = node'.deps ∧
        m.features id = node.features ∧ m'.features id = node'.features := by
  simp only [Metadata.deps, Metadata.features]
  generalize m.nodes.find? (·.id = id) = found at h ⊢
  generalize m'.nodes.find? (·.id = id) = found' at h ⊢
  cases h with
  | none => exact .inl ⟨rfl, rfl, rfl, rfl⟩
  | some hR => exact .inr ⟨_, _, hR, rfl, rfl, rfl, rfl⟩

/-- Another order leaves the whole graph as it is. -/
theorem agree_reorder (packages : m.packages.Perm m'.packages)
    (nodes : ∃ ns, m.nodes.Perm ns ∧ List.Forall₂ Node.Reordered ns m'.nodes) :
    Agree m m' Set.univ := by
  obtain ⟨ns, hperm, hreordered⟩ := nodes
  have hnode : ∀ id, Option.Rel Node.Reordered (m.nodes.find? (·.id = id))
      (m'.nodes.find? (·.id = id)) := by
    intro id
    rw [find?_perm hperm m.nodes_distinct]
    exact find?_forall₂ (fun _ _ h => h.id) hreordered id
  constructor
  · exact fun _ _ _ _ => trivial
  · intro a _ b
    rw [Metadata.edge_iff_deps, Metadata.edge_iff_deps]
    rcases deps_features_of_rel (hnode a) with ⟨hdeps, hdeps', -, -⟩ |
        ⟨node, node', h, hdeps, hdeps', -, -⟩
    · rw [hdeps, hdeps']
    · simp only [hdeps, hdeps', h.deps.mem_iff]
  · exact fun a _ => find?_perm packages m.packages_distinct a
  · intro a _
    rcases deps_features_of_rel (hnode a) with ⟨-, -, hfeatures, hfeatures'⟩ |
        ⟨node, node', h, -, -, hfeatures, hfeatures'⟩
    · rw [hfeatures, hfeatures']
    · rw [hfeatures, hfeatures', List.toFinset_eq_of_perm _ _ h.features]

/-- An edge for development only is not followed. -/
theorem Dep.not_followed {dep : Dep} (h : ∀ kind ∈ dep.depKinds, kind = DepKind.dev) :
    dep.followed = false := by
  rw [Dep.followed, List.any_eq_false]
  intro kind mem
  rw [h kind mem]
  decide

/-- Development edges leave the graph of the old packages as it is. -/
theorem agree_addDev {newPackages : List MetadataPackage}
    (packages : m'.packages = m.packages ++ newPackages) {old new : List Node}
    (nodes : m'.nodes = old ++ new) (extended : List.Forall₂ Node.DevExtended m.nodes old)
    (fresh : ∀ node ∈ new, node.id ∉ m.packages.map (·.id)) :
    Agree m m' { id | id ∈ m.packages.map (·.id) } := by
  have hnode : ∀ id ∈ m.packages.map (·.id), Option.Rel Node.DevExtended
      (m.nodes.find? (·.id = id)) (m'.nodes.find? (·.id = id)) := by
    intro id hid
    have hnew : new.find? (·.id = id) = none := by
      rw [List.find?_eq_none]
      rintro node mem heq
      exact fresh node mem (by simpa [of_decide_eq_true heq] using hid)
    rw [nodes, List.find?_append, hnew, Option.or_none]
    exact find?_forall₂ (fun _ _ h => h.id) extended id
  constructor
  · intro a _ b edge
    obtain ⟨node, mem, -, dep, hdep, -, rfl⟩ := Metadata.edge_iff.mp edge
    exact m.targets node mem dep hdep
  · intro a ha b
    rw [Metadata.edge_iff_deps, Metadata.edge_iff_deps]
    rcases deps_features_of_rel (hnode a ha) with ⟨hdeps, hdeps', -, -⟩ |
        ⟨node, node', h, hdeps, hdeps', -, -⟩
    · rw [hdeps, hdeps']
    · obtain ⟨added, hadded, hdev⟩ := h.deps
      rw [hdeps, hdeps', hadded]
      constructor
      · rintro ⟨dep, mem, hdep⟩
        exact ⟨dep, List.mem_append_left _ mem, hdep⟩
      · rintro ⟨dep, mem, hfollowed, hpkg⟩
        rcases List.mem_append.mp mem with mem | mem
        · exact ⟨dep, mem, hfollowed, hpkg⟩
        · rw [Dep.not_followed (hdev dep mem)] at hfollowed
          cases hfollowed
  · intro a ha
    obtain ⟨p, hp⟩ := Option.isSome_iff_exists.mp (Metadata.package?_isSome.mpr ha)
    have hfound : m.packages.find? (·.id = a) = some p := hp
    rw [hp, Metadata.package?, packages, List.find?_append, hfound]
    rfl
  · intro a ha
    rcases deps_features_of_rel (hnode a ha) with ⟨-, -, hfeatures, hfeatures'⟩ |
        ⟨node, node', h, -, -, hfeatures, hfeatures'⟩
    · rw [hfeatures, hfeatures']
    · rw [hfeatures, hfeatures', h.features]

/-- The consumer is found among the packages of the workspace. -/
theorem consumerPackage_congr (workspace : SameWorkspace m m')
    (matching : ∀ path ∈ manifest,
      (m.packages.filter fun p => paths.resolve p.manifestPath = paths.resolve path).Perm
        (m'.packages.filter fun p => paths.resolve p.manifestPath = paths.resolve path)) :
    consumerPackage paths m manifest = consumerPackage paths m' manifest := by
  cases manifest with
  | none => simp only [consumerPackage, workspace.root]
  | some path =>
      have hperm := (matching path rfl).map (·.id)
      simp only [consumerPackage, workspace.workspaceRoot, workspace.members]
      generalize (m.packages.filter fun p =>
        paths.resolve p.manifestPath = paths.resolve path).map (·.id) = found at hperm
      generalize (m'.packages.filter fun p =>
        paths.resolve p.manifestPath = paths.resolve path).map (·.id) = found' at hperm
      have hlength := hperm.length_eq
      cases found with
      | nil => rw [List.nil_perm.mp hperm]
      | cons id ids =>
          cases ids with
          | nil => rw [List.singleton_perm.mp hperm]
          | cons id' ids =>
              match found', hlength with
              | _ :: _ :: _, _ => rfl

/-- A consumer that a manifest names is a package. -/
theorem consumerPackage_mem {path root : Str}
    (h : consumerPackage paths m (some path) = .ok (some root)) :
    root ∈ m.packages.map (·.id) := by
  simp only [consumerPackage] at h
  split at h
  · rename_i found hfound
    split_ifs at h
    rw [Except.ok.injEq, Option.some.injEq] at h
    have mem : found ∈ (m.packages.filter fun p =>
        paths.resolve p.manifestPath = paths.resolve path).map (·.id) := by
      rw [hfound]
      exact List.mem_singleton_self found
    obtain ⟨p, hp, hid⟩ := List.mem_map.mp mem
    exact List.mem_map.mpr ⟨p, List.mem_of_mem_filter hp, by rw [hid, h]⟩
  · cases h

/-- One consumer, in graphs that agree where it is. -/
theorem graphIdentity_congr {sha256 : List UInt8 → Digest} {s : Set Str} (agree : Agree m m' s)
    (consumer : consumerPackage paths m manifest = consumerPackage paths m' manifest)
    (roots : ∀ root, consumerPackage paths m manifest = .ok (some root) →
      m.package? root = m'.package? root)
    (inside : ∀ root, (m.package? root).isSome → root ∈ s) (sets sets' : SetOrder) :
    (graphIdentity sha256 sets paths m manifest).toOption =
      (graphIdentity sha256 sets' paths m' manifest).toOption := by
  rw [graphIdentity, graphIdentity, ← consumer]
  cases hroot : consumerPackage paths m manifest with
  | error e => rfl
  | ok root =>
      cases root with
      | none => rfl
      | some root =>
          simp only [Option.bind_some, ← roots root hroot]
          cases hp : m.package? root with
          | none => rfl
          | some p =>
              have hid : p.id = root := (Metadata.package?_eq_some.mp hp).2
              refine agree.identityFrom_eq sets sets' (inside p.id ?_)
              rw [hid, hp]
              rfl

/-- One move leaves the identity, and whether there is one. -/
theorem Rearranged.graphIdentity_eq {sha256 : List UInt8 → Digest}
    (h : Rearranged paths manifest m m') (sets sets' : SetOrder) :
    (graphIdentity sha256 sets paths m manifest).toOption =
      (graphIdentity sha256 sets' paths m' manifest).toOption := by
  cases h with
  | reorder workspace packages nodes =>
      have agree := agree_reorder packages nodes
      exact graphIdentity_congr agree
        (consumerPackage_congr workspace fun path _ => packages.filter _)
        (fun root _ => agree.packages root trivial) (fun _ _ => trivial) sets sets'
  | addDev workspace newPackages packages old new nodes extended fresh root manifests =>
      have agree := agree_addDev packages nodes extended fresh
      have hmatching : ∀ path ∈ manifest,
          (m.packages.filter fun p => paths.resolve p.manifestPath = paths.resolve path).Perm
            (m'.packages.filter fun p => paths.resolve p.manifestPath = paths.resolve path) := by
        intro path hpath
        have hnone : newPackages.filter
            (fun p => paths.resolve p.manifestPath = paths.resolve path) = [] := by
          simpa [List.filter_eq_nil_iff] using fun p mem => manifests p mem path hpath
        rw [packages, List.filter_append, hnone, List.append_nil]
      refine graphIdentity_congr agree (consumerPackage_congr workspace hmatching) ?_
        (fun _ => Metadata.package?_isSome.mp) sets sets'
      intro start hstart
      by_cases hold : start ∈ m.packages.map (·.id)
      · exact agree.packages start hold
      · -- Then the start is the root of the metadata, which is no new package either.
        cases manifest with
        | some path => exact absurd (consumerPackage_mem hstart) hold
        | none =>
            have hnew : newPackages.find? (·.id = start) = none := by
              rw [List.find?_eq_none]
              intro p mem heq
              refine root p mem ?_
              rw [show m.root = some start from Except.ok.inj hstart]
              exact congrArg some (of_decide_eq_true heq).symm
            rw [Metadata.package?, Metadata.package?, packages, List.find?_append, hnew,
              Option.or_none]

end Moves

/-- **The identity depends on the graph without development edges only.** The search ends and
finds what edges of normal or build kind connect to its start, each package once; and no
sequence of moves, in either direction, changes the digest or whether there is one, whatever the
order of the sets. -/
theorem graphIdentity_rearranged (sha256 : List UInt8 → Digest) (paths : Paths)
    (manifest : Option Str) :
    (∀ (m : Metadata) (start : Str), (m.reachable start).Nodup ∧
      ∀ id, id ∈ m.reachable start ↔ Relation.ReflTransGen (fun a b => ∃ node ∈ m.nodes,
        node.id = a ∧ ∃ dep ∈ node.deps, dep.pkg = b ∧
          ∃ kind ∈ dep.depKinds, kind = .normal ∨ kind = .build) start id) ∧
    ∀ m m', Relation.EqvGen (Rearranged paths manifest) m m' → ∀ sets sets',
      (graphIdentity sha256 sets paths m manifest).toOption =
        (graphIdentity sha256 sets' paths m' manifest).toOption := by
  constructor
  · intro m start
    refine ⟨Graph.reachable_nodup start, fun id => ?_⟩
    have hedge : m.graph.Edge = fun a b => ∃ node ∈ m.nodes, node.id = a ∧
        ∃ dep ∈ node.deps, dep.pkg = b ∧ ∃ kind ∈ dep.depKinds, kind = .normal ∨ kind = .build := by
      funext a b
      rw [eq_iff_iff, Metadata.edge_iff]
      simp [Dep.followed, and_comm]
    rw [← hedge]
    exact Graph.mem_reachable_iff
  · intro m m' h
    induction h with
    | rel m m' h => exact h.graphIdentity_eq
    | refl m =>
        intro sets sets'
        have same : Rearranged paths manifest m m := .reorder ⟨rfl, rfl, rfl⟩ (.refl _)
          ⟨m.nodes, .refl _, List.forall₂_same.mpr fun _ _ => ⟨rfl, .refl _, .refl _⟩⟩
        exact same.graphIdentity_eq sets sets'
    | symm m m' _ ih => exact fun sets sets' => (ih sets' sets).symm
    | trans m m' m'' _ _ ih ih' => exact fun sets sets' => (ih sets sets).trans (ih' sets sets')

end Libdeno.Snapshot
