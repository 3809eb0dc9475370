import JoinShapes.Proofs.JoinGraph.Coherent
import JoinShapes.Proofs.Plan.Records

/-!
# Which graphs have a plan

A graph may name things that are not there: it may have been planned for another schema, and the edges of its tables
may lead anywhere. The assembly looks at everything that a graph names. If the combinations are those of a run, there is
a plan just when each edge resolves, no owner has two edges to one partner, and the combinations are made of tables of
the schema (`Whole`). That plan leaves nothing out (`wholePlan`): it has a record for each table and each combination of
several tables, and an entry for each edge. In all other cases the assembly reports what it found (`ofGraph_resolves`).

Each part of the assembly has its exact condition (`step_decides`, `tableRecord_decides`, `combinationRecord_decides`),
and the conditions add up to that of the whole. Only one of them is not read off the program: that an owner has two
methods of one name just when two of its edges have the same partner (`methodOf_eq_iff`). It needs that names tell
groups of tables apart, and that a run stores a group only once.
-/

namespace JoinShapes

variable {s : Schema} {g : JoinGraph} {st : Store} {c : Combination} {e f : JoinEdge} {edges : EdgeSet}
variable {id k : Nat} {m o : IndexSet} {nodes : List TableNode}

/-! ## Look-ups -/

namespace Store

/-- The members of the combination at a position, none if there is no combination. -/
def membersAt (s : Store) (id : Nat) : IndexSet := (s.combinations[id]?.map (·.members)).getD .empty

theorem At.membersAt (h : st.At id m) : st.membersAt id = m := by
  obtain ⟨c, hc, rfl⟩ := h
  simp [Store.membersAt, hc]

theorem at_membersAt (h : id < st.size) : st.At id (st.membersAt id) := by
  obtain ⟨m, hm⟩ := exists_at_of_lt_size h
  rwa [hm.membersAt]

end Store

namespace Plan

/-- The assembly reports a finding of its own; that the numbers of tables and nodes differ is found before. -/
def Unresolved (e : PlanError) : Prop :=
  ∃ b, e = .invariant .materialization b ∧ ∀ tables nodes, b ≠ .nodeCountMismatch tables nodes

theorem get_decides (st : Store) (id : Nat) :
    Decides Unresolved (id < st.size) (st.get .materialization id) fun c => st.combinations[id]? = some c := by
  unfold Store.get
  cases hc : st.combinations[id]? with
  | none => exact ⟨Nat.not_lt.2 (Array.getElem?_eq_none_iff.1 hc), _, rfl, nofun⟩
  | some c => exact ⟨(Array.getElem?_eq_some_iff.1 hc).1, rfl⟩

theorem tableAt_decides (s : Schema) (i : Nat) :
    Decides Unresolved (i < s.size) (tableAt s i) fun t => s.tables[i]? = some t := by
  unfold tableAt
  cases ht : s.tables[i]? with
  | none => exact ⟨Nat.not_lt.2 (List.getElem?_eq_none_iff.1 ht), _, rfl, nofun⟩
  | some t => exact ⟨(List.getElem?_eq_some_iff.1 ht).1, rfl⟩

/-- The names of the tables at the positions, in order. -/
def namesAt (s : Schema) (m : IndexSet) : List String := JoinedName.sorted (m.toList.map s.nameAt)

theorem memberNames_decides (s : Schema) (c : Combination) :
    Decides Unresolved (s.Inside c.members) (memberNames s c) (· = namesAt s c.members) := by
  have hnames : Decides Unresolved (s.Inside c.members) (c.members.toList.mapM fun i => (·.name) <$> tableAt s i)
      (· = c.members.toList.map s.nameAt) := by
    refine Decides.mapM (C := (· < s.size)) fun i _ => Decides.map ?_
    exact (tableAt_decides s i).mono fun t _ ht => (Schema.nameAt_eq ht).symm
  exact hnames.bind_pure fun names _ hall => by rw [hall, namesAt]

/-! ## Edges -/

/-- Both ends of the edge are stored and made of tables of the schema, and it leads to several tables. -/
structure Resolves (s : Schema) (st : Store) (e : JoinEdge) : Prop where
  partner : e.partner < st.size
  result : e.result < st.size
  two_le : 2 ≤ (st.membersAt e.result).size
  inside_partner : s.Inside (st.membersAt e.partner)
  inside_result : s.Inside (st.membersAt e.result)

/-- The only element of a set of one. -/
def only? (m : IndexSet) : Option Nat :=
  match m.toList with
  | [i] => some i
  | _ => none

/-- The method that an edge gives to its owner. -/
def methodOf (s : Schema) (st : Store) (e : JoinEdge) : String :=
  JoinedName.accessor (namesAt s (st.membersAt e.partner))

/-- The entry of an edge. -/
def entryOf (s : Schema) (st : Store) (e : JoinEdge) : RefJoinedTable where
  joinedTable := JoinedName.ofTables (namesAt s (st.membersAt e.result))
  width := (st.membersAt e.result).size
  tables := namesAt s (st.membersAt e.partner)
  accessor := methodOf s st e
  viaRefTable := (only? (st.membersAt e.partner)).map s.nameAt

/-- The entries of the edges, in order. -/
def entriesOf (s : Schema) (st : Store) (edges : EdgeSet) : List RefJoinedTable :=
  RefJoinedTable.sorted (edges.toList.map (entryOf s st))

/-- All edges of an owner resolve, and no two of them have the same partner. -/
structure EdgesResolve (s : Schema) (st : Store) (edges : EdgeSet) : Prop where
  resolves : ∀ e ∈ edges, Resolves s st e
  partners : ∀ e ∈ edges, ∀ f ∈ edges, e.partner = f.partner → e = f

/-- A group of one table has its name at the head of its list of names. -/
theorem head?_namesAt : (if m.size = 1 then (namesAt s m).head? else none) = (only? m).map s.nameAt := by
  by_cases hone : m.size = 1
  · obtain ⟨i, rfl⟩ := IndexSet.eq_singleton_of_size hone
    rw [if_pos hone, namesAt, JoinedName.sorted]
    exact congrArg List.head? (List.mergeSort_singleton (s.nameAt i))
  · rw [if_neg hone]
    unfold only?
    split
    · rename_i i hi
      exact absurd (congrArg List.length hi) hone
    · rfl

/-- **An edge gives its entry** just when it resolves to a method that is new. -/
theorem step_decides (s : Schema) (g : JoinGraph) (owner : String) (seen : List String) (e : JoinEdge) :
    Decides Unresolved (Resolves s g.store e ∧ methodOf s g.store e ∉ seen) (step s g owner seen e)
      (· = entryOf s g.store e) := by
  have hparts : (e.result < g.store.size ∧ 2 ≤ (g.store.membersAt e.result).size ∧ e.partner < g.store.size ∧
      s.Inside (g.store.membersAt e.partner) ∧ methodOf s g.store e ∉ seen ∧
      s.Inside (g.store.membersAt e.result)) ↔ Resolves s g.store e ∧ methodOf s g.store e ∉ seen := by
    constructor
    · rintro ⟨hresult, hw, hpartner, hp, hnew, hr⟩
      exact ⟨⟨hpartner, hresult, hw, hp, hr⟩, hnew⟩
    · rintro ⟨h, hnew⟩
      exact ⟨h.result, h.two_le, h.partner, h.inside_partner, hnew, h.inside_result⟩
  refine Decides.congr ?_ hparts
  unfold step
  refine (get_decides g.store e.result).bind fun r _ hr => ?_
  have hr' : g.store.membersAt e.result = r.members := Store.At.membersAt ⟨r, hr, rfl⟩
  rw [hr']
  refine Decides.guard Nat.not_lt.symm ⟨_, rfl, nofun⟩ fun _ => ?_
  refine (get_decides g.store e.partner).bind fun p _ hp => ?_
  have hp' : g.store.membersAt e.partner = p.members := Store.At.membersAt ⟨p, hp, rfl⟩
  rw [hp']
  refine (memberNames_decides s p).bind fun names _ hnames => ?_
  subst hnames
  have hmethod : JoinedName.accessor (namesAt s p.members) = methodOf s g.store e := by rw [methodOf, hp']
  rw [hmethod]
  refine Decides.guard Iff.rfl ⟨_, rfl, nofun⟩ fun _ => ?_
  refine (memberNames_decides s r).bind_pure fun names _ hnames => ?_
  rw [entryOf, hr', hp', hnames, Combination.width, Combination.width, head?_namesAt]

/-- **The edges of an owner give their entries, one after the other**, as long as no method comes again. -/
theorem steps_decides (s : Schema) (g : JoinGraph) (owner : String) : ∀ (seen : List String) (es : List JoinEdge),
    Decides Unresolved ((∀ e ∈ es, Resolves s g.store e) ∧ (es.map (methodOf s g.store)).Nodup ∧
      ∀ e ∈ es, methodOf s g.store e ∉ seen) (steps s g owner seen es) (· = es.map (entryOf s g.store))
  | seen, [] => ⟨by simp, rfl⟩
  | seen, e :: es => by
    have hparts : ((Resolves s g.store e ∧ methodOf s g.store e ∉ seen) ∧ (∀ f ∈ es, Resolves s g.store f) ∧
        (es.map (methodOf s g.store)).Nodup ∧ ∀ f ∈ es, methodOf s g.store f ∉ methodOf s g.store e :: seen) ↔
        (∀ f ∈ e :: es, Resolves s g.store f) ∧ ((e :: es).map (methodOf s g.store)).Nodup ∧
          ∀ f ∈ e :: es, methodOf s g.store f ∉ seen := by
      simp only [List.map_cons, List.nodup_cons, List.mem_cons, not_or, List.mem_map, not_exists, not_and]
      grind
    refine Decides.congr ?_ hparts
    refine (step_decides s g owner seen e).bind fun r _ hr => ?_
    subst hr
    exact (steps_decides s g owner _ es).bind_pure fun rs _ hrs => by rw [hrs, List.map_cons]

/-- Edges that resolve have one method just when they have one partner. -/
theorem methodOf_eq_iff (hst : st.Coherent) (he : Resolves s st e) (hf : Resolves s st f) :
    methodOf s st e = methodOf s st f ↔ e.partner = f.partner := by
  refine ⟨fun h => ?_, fun h => by rw [methodOf, methodOf, h]⟩
  have hpos : ∀ {e}, Resolves s st e → 0 < (st.membersAt e.partner).size :=
    fun he => (hst.width (Store.at_membersAt he.partner)).1
  rw [methodOf, methodOf, namesAt, namesAt, Schema.sorted_names he.inside_partner,
    Schema.sorted_names hf.inside_partner] at h
  have hmembers : st.membersAt e.partner = st.membersAt f.partner :=
    Schema.eq_of_ofTables_namesOf_eq he.inside_partner hf.inside_partner (hpos he) (hpos hf) h
  exact hst.at_inj (Store.at_membersAt he.partner) (hmembers ▸ Store.at_membersAt hf.partner)

/-- **An owner has its entries** just when its edges resolve and lead to different partners. -/
theorem joinedReferences_decides (hg : g.store.Coherent) (s : Schema) (owner : String) (edges : EdgeSet) :
    Decides Unresolved (EdgesResolve s g.store edges) (joinedReferences s g owner edges)
      (· = entriesOf s g.store edges) := by
  have hparts : ((∀ e ∈ edges.toList, Resolves s g.store e) ∧ (edges.toList.map (methodOf s g.store)).Nodup ∧
      ∀ e ∈ edges.toList, methodOf s g.store e ∉ []) ↔ EdgesResolve s g.store edges := by
    rw [List.nodup_map_iff_inj_on edges.nodup_toList]
    constructor
    · rintro ⟨hres, hinj, _⟩
      exact ⟨hres, fun e he f hf h => hinj e he f hf ((methodOf_eq_iff hg (hres e he) (hres f hf)).2 h)⟩
    · rintro ⟨hres, hinj⟩
      refine ⟨hres, fun e he f hf h => ?_, by simp⟩
      exact hinj e he f hf ((methodOf_eq_iff hg (hres e he) (hres f hf)).1 h)
  refine Decides.map (((steps_decides s g owner [] edges.toList).congr hparts).mono fun rs _ hrs => ?_)
  rw [hrs, entriesOf]

/-! ## References -/

/-- The references from a table of the combination to extensions, one for each foreign key. -/
def keysOut (s : Schema) (c : Combination) (t : TableSchema) : List RefTable :=
  (t.outgoing.filter fun fk => (s.indexOf? fk.refTable).any (· ∈ c.extensions)).map fun fk =>
    reference t.name fk fk.refTable

/-- The references from an extension to tables of the combination, one for each foreign key. -/
def keysIn (s : Schema) (c : Combination) (t : TableSchema) : List RefTable :=
  (t.outgoing.filter fun fk => (s.indexOf? fk.refTable).any (· ∈ c.members)).map fun fk => reference t.name fk t.name

/-- The tables at the positions, in order. -/
def tablesAt (s : Schema) (m : IndexSet) : List TableSchema := m.toList.filterMap (s.tables[·]?)

/-- The references between a combination and its extensions, in order. -/
def keysAcross (s : Schema) (c : Combination) : List RefTable :=
  RefTable.sorted ((tablesAt s c.members).flatMap (keysOut s c) ++ (tablesAt s c.extensions).flatMap (keysIn s c))

/-- What a loop over positions gathers is what it finds at their tables. -/
theorem gather_decides {f : Nat → Except PlanError (List RefTable)} {h : TableSchema → List RefTable} (m : IndexSet)
    (hf : ∀ i, Decides Unresolved (i < s.size) (f i) fun rs => ∃ t, s.tables[i]? = some t ∧ rs = h t) :
    Decides Unresolved (s.Inside m) (m.toList.mapM f) fun rss => rss.flatten = (tablesAt s m).flatMap h := by
  have hat : ∀ i ∈ m.toList, Decides Unresolved (i < s.size) (f i) (· = ((s.tables[i]?).map h).getD []) :=
    fun i _ => (hf i).mono fun rs _ ⟨t, ht, hrs⟩ => by rw [hrs, ht, Option.map_some, Option.getD_some]
  refine (Decides.mapM hat).mono fun rss _ hrss => ?_
  rw [hrss, tablesAt, ← List.flatMap_def, List.filterMap_eq_flatMap_toList, List.flatMap_assoc]
  refine List.flatMap_congr fun i _ => ?_
  cases s.tables[i]? <;> simp

theorem referencesOut_decides (s : Schema) (c : Combination) (i : Nat) :
    Decides Unresolved (i < s.size) (referencesOut s c i) fun rs =>
      ∃ t, s.tables[i]? = some t ∧ rs = keysOut s c t := by
  refine ((tableAt_decides s i).bind fun t _ ht => ?_).congr (and_iff_left trivial)
  -- A schema has the targets of all its keys, so this loop never stops.
  have htarget : ∀ fk ∈ t.outgoing, s.indexOf? fk.refTable = some ((s.indexOf? fk.refTable).getD 0) := by
    intro fk hfk
    obtain ⟨j, hj⟩ := Schema.exists_indexOf?_of_outgoing (List.mem_of_getElem? ht) hfk
    rw [hj, Option.getD_some]
  rw [mapM_eq_ok (g := fun fk => (fk, (s.indexOf? fk.refTable).getD 0)) fun fk hfk => by rw [htarget fk hfk]; rfl]
  refine Decides.pure ⟨t, ht, ?_⟩
  rw [keysOut, List.filter_map, List.map_map]
  refine congrArg _ (List.filter_congr fun fk hfk => ?_)
  rw [htarget fk hfk]
  rfl

theorem referencesIn_decides (s : Schema) (c : Combination) (i : Nat) :
    Decides Unresolved (i < s.size) (referencesIn s c i) fun rs =>
      ∃ t, s.tables[i]? = some t ∧ rs = keysIn s c t :=
  (tableAt_decides s i).bind_pure fun t _ ht => ⟨t, ht, rfl⟩

theorem combinationReferences_decides (s : Schema) (c : Combination) :
    Decides Unresolved (s.Inside c.members ∧ s.Inside c.extensions) (combinationReferences s c)
      (· = keysAcross s c) := by
  refine (gather_decides c.members (referencesOut_decides s c)).bind fun out _ hout => ?_
  refine (gather_decides c.extensions (referencesIn_decides s c)).bind_pure fun back _ hback => ?_
  rw [hout, hback, keysAcross]

/-! ## Records -/

/-- The record of a table. -/
def tableOf (s : Schema) (g : JoinGraph) (t : TableSchema) (i : Nat) : PlannedTable :=
  ⟨t.name, t.columns, t.primaryKey, t.foreignKeys, tableReferences t,
    entriesOf s g.store (g.tableEdges[i]?.getD .empty)⟩

/-- The record of a combination. -/
def joinedTableOf (s : Schema) (g : JoinGraph) (c : Combination) (id : Nat) : JoinedTable :=
  ⟨JoinedName.ofTables (namesAt s c.members), namesAt s c.members, keysAcross s c, entriesOf s g.store (g.edgesOf id)⟩

/-- There is a list of edges for the table, and it resolves. -/
def TableResolves (s : Schema) (g : JoinGraph) (i : Nat) : Prop :=
  ∃ edges, g.tableEdges[i]? = some edges ∧ EdgesResolve s g.store edges

/-- The combination and what is next to it are tables of the schema, and its edges resolve. -/
structure CombinationResolves (s : Schema) (g : JoinGraph) (c : Combination) (id : Nat) : Prop where
  members : s.Inside c.members
  extensions : s.Inside c.extensions
  edges : EdgesResolve s g.store (g.edgesOf id)

theorem tableRecord_decides (hg : g.store.Coherent) (s : Schema) (t : TableSchema) (i : Nat) :
    Decides Unresolved (TableResolves s g i) (tableRecord s g t i) (· = tableOf s g t i) := by
  unfold tableRecord
  cases hedges : g.tableEdges[i]? with
  | none => exact ⟨fun ⟨_, h, _⟩ => by simp [hedges] at h, _, rfl, nofun⟩
  | some edges =>
    have hres : EdgesResolve s g.store edges ↔ TableResolves s g i := by simp [TableResolves, hedges]
    refine ((joinedReferences_decides hg s t.name edges).congr hres).bind_pure fun rs _ hrs => ?_
    rw [tableOf, hedges, hrs]
    rfl

theorem combinationRecord_decides (hg : g.store.Coherent) (s : Schema) (c : Combination) (id : Nat) :
    Decides Unresolved (CombinationResolves s g c id) (combinationRecord s g c id) (· = joinedTableOf s g c id) := by
  have hparts : (s.Inside c.members ∧ (s.Inside c.members ∧ s.Inside c.extensions) ∧
      EdgesResolve s g.store (g.edgesOf id)) ↔ CombinationResolves s g c id :=
    ⟨fun ⟨hm, ⟨_, hext⟩, hedges⟩ => ⟨hm, hext, hedges⟩, fun h => ⟨h.members, ⟨h.members, h.extensions⟩, h.edges⟩⟩
  refine Decides.congr ?_ hparts
  refine (memberNames_decides s c).bind fun names _ hnames => ?_
  refine (combinationReferences_decides s c).bind fun refs _ hrefs => ?_
  refine (joinedReferences_decides hg s _ (g.edgesOf id)).bind_pure fun rs _ hrs => ?_
  rw [hnames, hrefs, hrs, joinedTableOf]

/-! ## Plans -/

/-- All that a graph names is there. -/
structure Whole (s : Schema) (g : JoinGraph) : Prop where
  /-- No table is without a list of edges. -/
  lists : s.size ≤ g.tableEdges.size
  tables : ∀ i < s.size, ∀ edges, g.tableEdges[i]? = some edges → EdgesResolve s g.store edges
  combinations : ∀ id c, g.store.combinations[id]? = some c → 2 ≤ c.width → CombinationResolves s g c id

/-- The plan with a record for each table and each combination of several tables, and an entry for each edge. -/
def wholePlan (s : Schema) (g : JoinGraph) : Plan where
  name := s.name
  joinNum := g.joinNum
  tables := s.tables.zipIdx.map fun (t, i) => tableOf s g t i
  joinedTables := JoinedTable.sorted ((wide g).map fun (c, id) => joinedTableOf s g c id)

theorem whole_iff : Whole s g ↔ (∀ x ∈ s.tables.zipIdx, TableResolves s g x.2) ∧
    ∀ x ∈ wide g, CombinationResolves s g x.1 x.2 := by
  have htables : (∀ x ∈ s.tables.zipIdx, TableResolves s g x.2) ↔ ∀ i < s.size, TableResolves s g i := by
    constructor
    · exact fun h i hi => h (s.tables[i], i) (List.mk_mem_zipIdx_iff_getElem?.2 (List.getElem?_eq_getElem hi))
    · rintro h ⟨t, i⟩ hti
      exact h i (List.getElem?_eq_some_iff.1 (List.mk_mem_zipIdx_iff_getElem?.1 hti)).1
  have hwide : (∀ x ∈ wide g, CombinationResolves s g x.1 x.2) ↔
      ∀ id c, g.store.combinations[id]? = some c → 2 ≤ c.width → CombinationResolves s g c id :=
    ⟨fun h id c hc hw => h (c, id) (mem_wide.2 ⟨hc, hw⟩),
      fun h x hx => h x.2 x.1 (mem_wide.1 hx).1 (mem_wide.1 hx).2⟩
  rw [htables, hwide]
  constructor
  · rintro ⟨hlists, hres, hcombs⟩
    refine ⟨fun i hi => ?_, hcombs⟩
    have hedges := Array.getElem?_eq_getElem (Nat.lt_of_lt_of_le hi hlists)
    exact ⟨_, hedges, hres i hi _ hedges⟩
  · rintro ⟨hres, hcombs⟩
    refine ⟨?_, fun i hi edges hedges => ?_, hcombs⟩
    · by_contra hfew
      obtain ⟨edges, hedges, _⟩ := hres g.tableEdges.size (Nat.not_le.1 hfew)
      simp at hedges
    · obtain ⟨edges', hedges', hall⟩ := hres i hi
      rw [hedges] at hedges'
      cases hedges'
      exact hall

/-- **A graph of as many nodes as there are tables has its whole plan** just when all that it names is there. -/
theorem ofGraph_decides (hg : g.store.Coherent) (hsize : s.size = g.nodes.size) :
    Decides Unresolved (Whole s g) (ofGraph s g) (· = wholePlan s g) := by
  refine Decides.congr ?_ whole_iff.symm
  rw [ofGraph_eq hsize]
  refine (Decides.mapM fun x _ => tableRecord_decides hg s x.1 x.2).bind fun tables _ htables => ?_
  refine (Decides.mapM fun x _ => combinationRecord_decides hg s x.1 x.2).bind_pure fun js _ hjs => ?_
  rw [htables, hjs]
  rfl

/-! ## Graphs over the combinations of a run -/

/-- Edges to the partners resolve in every schema with as many tables as there are nodes. -/
theorem edgesResolve_of_navigates (hg : st.Sound nodes k) (hsize : s.size = nodes.length)
    (h : JoinGraph.Navigates nodes k st o edges) (ho : s.Inside o) : EdgesResolve s st edges := by
  have hinside : ∀ {p}, IsShape nodes p → s.Inside p := fun hp i hi => hsize ▸ hp.inside i hi
  constructor
  · intro e he
    obtain ⟨p, hlead⟩ := h.sound e he
    have hp := hinside hlead.isPartner.shape
    refine ⟨hlead.partner.lt_size, hlead.result.lt_size, ?_, ?_, ?_⟩
    · rw [hlead.result.membersAt]
      exact hlead.isPartner.two_le_size_union
    · rwa [hlead.partner.membersAt]
    · rw [hlead.result.membersAt]
      exact ho.union hp
  · intro e he f hf hpartner
    obtain ⟨p, hlead⟩ := h.sound e he
    obtain ⟨q, hlead'⟩ := h.sound f hf
    have hpq : p = q := hlead.partner.unique (hpartner ▸ hlead'.partner)
    have hresult : e.result = f.result := hg.coherent.at_inj hlead.result (hpq ▸ hlead'.result)
    obtain ⟨a, b⟩ := e
    obtain ⟨a', b'⟩ := f
    exact congrArg₂ _ hpartner hresult

/-- The combinations of an exact graph resolve in every schema with as many tables as there are nodes. -/
theorem combinationResolves_of_exact (hp : TableNode.Placed nodes) (hg : JoinGraph.Exact nodes k g)
    (hsize : s.size = nodes.length) (hc : g.store.combinations[id]? = some c) (hw : 2 ≤ c.width) :
    CombinationResolves s g c id := by
  have hfaithful := hg.sound.faithful hc
  have hm : s.Inside c.members := fun i hi => hsize ▸ hfaithful.shape.inside i hi
  refine ⟨hm, fun j hj => ?_, edgesResolve_of_navigates hg.sound hsize (hg.combinationEdges ⟨c, hc, rfl⟩ hw) hm⟩
  obtain ⟨⟨i, _, hij⟩, _⟩ := hfaithful.mem_extensions.1 hj
  exact hsize ▸ hp.adjacent_lt hij

/-- **Which graphs have a plan.** A graph over the combinations of a run is refused at once if it has not as many nodes
as there are tables. Else it has its whole plan if all that it names is there, and otherwise a finding is reported. -/
theorem ofGraph_resolves (s : Schema) (hg : g.OfRun) :
    (s.size ≠ g.nodes.size →
      ofGraph s g = .error (.invariant .materialization (.nodeCountMismatch s.size g.nodes.size))) ∧
    (s.size = g.nodes.size →
      (Whole s g → ofGraph s g = .ok (wholePlan s g)) ∧
      (¬ Whole s g → ∃ b, ofGraph s g = .error (.invariant .materialization b) ∧
        ∀ tables nodes, b ≠ .nodeCountMismatch tables nodes)) := by
  have hcoherent := hg.coherent
  refine ⟨fun hsize => ?_, fun hsize => ⟨fun hwhole => ?_, fun hmissing => ?_⟩⟩
  · rw [ofGraph, if_pos hsize]
    rfl
  · obtain ⟨p, hp, rfl⟩ := (ofGraph_decides hcoherent hsize).exists_ok hwhole
    exact hp
  · obtain ⟨e, he, b, rfl, hb⟩ := (ofGraph_decides hcoherent hsize).exists_error hmissing
    exact ⟨b, he, hb⟩

/-- The combinations of the fan over the tables of the library: there is a plan with lists of edges, though they be
empty, and none without them or without nodes. -/
theorem library_resolves : ∃ run, (JoinGraph.ofNodes JoinGraph.fan 3).outcome = .ok run ∧
    (∃ p, ofGraph library { run with tableEdges := #[.empty, .empty, .empty] } = .ok p) ∧
    (∃ b, ofGraph library { run with tableEdges := #[] } = .error (.invariant .materialization b)) ∧
    ofGraph library { run with nodes := #[] } = .error (.invariant .materialization (.nodeCountMismatch 3 0)) := by
  have hfit : 3 ≤ Fingerprint.maxExactWidth JoinGraph.fan.length := Fingerprint.le_maxExactWidth (by decide) (by decide)
  obtain ⟨run, hrun, hexact⟩ := JoinGraph.ofNodes_eq_ok JoinGraph.placed_fan (by decide) (by decide) hfit
  have hof : ∀ nodes lists, JoinGraph.OfRun { run with nodes := nodes, tableEdges := lists } :=
    fun _ _ => ⟨JoinGraph.fan, 3, run, hrun, rfl, rfl⟩
  have hsize : library.size = run.nodes.size := by
    rw [hexact.nodes_eq]
    rfl
  have hwhole : Whole library { run with tableEdges := #[.empty, .empty, .empty] } := by
    refine ⟨Nat.le_refl 3, fun i _ edges hedges => ?_, fun id c hc hw => ?_⟩
    · obtain rfl : edges = .empty := by
        match i with
        | 0 | 1 | 2 =>
          cases hedges
          rfl
      exact ⟨fun e he => absurd he EdgeSet.not_mem_empty, fun e he => absurd he EdgeSet.not_mem_empty⟩
    · have hres := combinationResolves_of_exact (s := library) JoinGraph.placed_fan hexact rfl hc hw
      exact ⟨hres.members, hres.extensions, hres.edges⟩
  have hmissing : ¬ Whole library { run with tableEdges := #[] } := fun h => absurd h.lists (Nat.not_succ_le_zero 2)
  have hplan := ((ofGraph_resolves library (hof run.nodes #[.empty, .empty, .empty])).2 hsize).1 hwhole
  obtain ⟨b, hb, _⟩ := ((ofGraph_resolves library (hof run.nodes #[])).2 hsize).2 hmissing
  exact ⟨run, hrun, ⟨_, hplan⟩, ⟨b, hb⟩, (ofGraph_resolves library (hof #[] run.tableEdges)).1 (Nat.succ_ne_zero 2)⟩

end Plan
end JoinShapes
