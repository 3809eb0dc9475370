import JoinShapes.Proofs.JoinGraph.Exact
import JoinShapes.Proofs.Plan.References

/-!
# Assembly never fails

Putting names to an exact join graph of a schema has a result (`ofGraph_eq_ok`), and that is described by the graph:
each owner lists one entry for each of its partners, and there is one joined table for each shape of several tables
(`Describes`).
-/

namespace JoinShapes
namespace Plan

open JoinGraph (Exact Leads Navigates Partner)
open Store (get_eq_ok)
open TableNode (Notes)

variable {s : Schema} {g : JoinGraph} {nodes : List TableNode} {k i id : Nat} {c d : Combination} {m o p : IndexSet}
variable {e : JoinEdge} {edges : EdgeSet} {owner : String} {seen : List String} {t : TableSchema}

/-! ## Names of members -/

theorem memberNames_eq_ok (hm : s.Inside c.members) : memberNames s c = .ok (s.namesOf c.members).sort := by
  have hnames : (c.members.toList.mapM fun i => (·.name) <$> tableAt s i) = .ok (c.members.toList.map s.nameAt) := by
    refine mapM_eq_ok fun i hi => ?_
    obtain ⟨t, ht, hok⟩ := tableAt_eq_ok (hm i hi)
    rw [hok, Schema.nameAt_eq ht]
    rfl
  rw [memberNames, hnames, ← Schema.sorted_names hm]
  rfl

/-! ## Entries -/

/-- The entry of the owner `o` for the partner `p`. -/
def entry (s : Schema) (o p : IndexSet) : RefJoinedTable where
  joinedTable := JoinedName.ofTables (s.namesOf (o.union p)).sort
  width := (o.union p).size
  tables := (s.namesOf p).sort
  accessor := JoinedName.accessor (s.namesOf p).sort
  viaRefTable := if p.size = 1 then (s.namesOf p).sort.head? else none

/-- The entry of the owner `O` for the group `H`. -/
def groupEntry (O H : Finset String) : RefJoinedTable where
  joinedTable := JoinedName.ofTables (O ∪ H).sort
  width := (O ∪ H).card
  tables := H.sort
  accessor := JoinedName.accessor H.sort
  viaRefTable := if H.card = 1 then H.sort.head? else none

theorem entry_eq_groupEntry (ho : s.Inside o) (hp : s.Inside p) :
    entry s o p = groupEntry (s.namesOf o) (s.namesOf p) := by
  rw [entry, groupEntry, ← Schema.namesOf_union, Schema.card_namesOf (ho.union hp), Schema.card_namesOf hp]

theorem step_eq_ok (ho : s.Inside o) (hp : s.Inside p) (hw : 2 ≤ (o.union p).size) (hpartner : g.store.At e.partner p)
    (hresult : g.store.At e.result (o.union p)) (hseen : (entry s o p).accessor ∉ seen) :
    step s g owner seen e = .ok (entry s o p) := by
  obtain ⟨c, hc, rfl⟩ := hpartner
  obtain ⟨d, hd, hmembers⟩ := hresult
  have hdw : ¬ d.width < 2 := by rw [Combination.width, hmembers]; omega
  have hnames := memberNames_eq_ok (s := s) (c := d) (hmembers ▸ ho.union hp)
  rw [hmembers] at hnames
  simp only [step, get_eq_ok .materialization hd, get_eq_ok .materialization hc, memberNames_eq_ok hp, hnames,
    if_neg hdw, bind, Except.bind, pure, Except.pure]
  rw [if_neg (show JoinedName.accessor _ ∉ seen from hseen), entry, ← hmembers]
  rfl

/-- Different partners give entries with different methods. -/
theorem partner_eq_of_accessor_eq {q : IndexSet} (hnodes : Notes s.size s.RefersAt nodes) (hp : IsShape nodes p)
    (hq : IsShape nodes q) (h : (entry s o p).accessor = (entry s o q).accessor) : p = q :=
  Schema.eq_of_ofTables_namesOf_eq (Schema.inside_of_isShape hnodes hp) (Schema.inside_of_isShape hnodes hq)
    hp.size_pos hq.size_pos h

/-- **Edges to partners with methods of their own give the entries**, in order. -/
theorem steps_eq_ok (hnodes : Notes s.size s.RefersAt nodes) (ho : s.Inside o) {es : List JoinEdge}
    {ps : List IndexSet} (h : List.Forall₂ (Leads nodes k g.store o) es ps)
    (hps : (ps.map fun p => (entry s o p).accessor).Nodup) (hseen : ∀ p ∈ ps, (entry s o p).accessor ∉ seen) :
    steps s g owner seen es = .ok (ps.map (entry s o)) := by
  induction h generalizing seen with
  | nil => rfl
  | @cons e p es ps he _ ih =>
    rw [List.map_cons, List.nodup_cons] at hps
    have hinside := Schema.inside_of_isShape hnodes he.isPartner.shape
    have hstep : step s g owner seen e = .ok (entry s o p) :=
      step_eq_ok ho hinside he.isPartner.two_le_size_union he.partner he.result (hseen p List.mem_cons_self)
    have hrest : steps s g owner ((entry s o p).accessor :: seen) es = .ok (ps.map (entry s o)) := by
      refine ih hps.2 fun q hq hmem => ?_
      rcases List.mem_cons.1 hmem with hsame | hold
      · exact hps.1 (List.mem_map.2 ⟨q, hq, hsame⟩)
      · exact hseen q (List.mem_cons_of_mem _ hq) hold
    rw [steps, hstep]
    simp only [bind, Except.bind, hrest, List.map_cons]
    rfl

/-- The partners in order of the edges: each once, and all of them. -/
theorem exists_partners (hg : g.store.Sound nodes k) (h : Navigates nodes k g.store o edges) :
    ∃ ps, List.Forall₂ (Leads nodes k g.store o) edges.toList ps ∧ ps.Nodup ∧ ∀ p, p ∈ ps ↔ Partner nodes k o p := by
  obtain ⟨ps, hps⟩ := exists_forall₂ (R := Leads nodes k g.store o) fun e (he : e ∈ edges.toList) => h.sound e he
  have hright : Relator.RightUnique (Leads nodes k g.store o) := fun e p q hp hq => hp.partner.unique hq.partner
  have hleft : Relator.LeftUnique (Leads nodes k g.store o) := by
    intro e p f he hf
    obtain ⟨a, b⟩ := e
    obtain ⟨a', b'⟩ := f
    obtain rfl := hg.coherent.at_inj he.partner hf.partner
    obtain rfl := hg.coherent.at_inj he.result hf.result
    rfl
  refine ⟨ps, hps, (List.rel_nodup ⟨hleft, hright⟩ hps).1 edges.nodup_toList, fun p => ⟨fun hp => ?_, fun hp => ?_⟩⟩
  · obtain ⟨e, _, he⟩ := exists_mem_left_of_forall₂ hps hp
    exact he.isPartner
  · obtain ⟨e, he, hlead⟩ := h.complete p hp
    obtain ⟨q, hq, heq⟩ := exists_mem_right_of_forall₂ hps he
    rwa [hlead.partner.unique heq.partner]

/-- The entries of the owner `o`, in order: one for each of its partners. -/
def Lists (s : Schema) (nodes : List TableNode) (k : Nat) (o : IndexSet) (rs : List RefJoinedTable) : Prop :=
  ∃ ps : List IndexSet, ps.Nodup ∧ (∀ p, p ∈ ps ↔ Partner nodes k o p) ∧ rs = RefJoinedTable.sorted (ps.map (entry s o))

/-- **An owner with exact edges lists its partners.** -/
theorem joinedReferences_eq_ok (owner : String) (hnodes : Notes s.size s.RefersAt nodes)
    (hg : g.store.Sound nodes k) (ho : s.Inside o) (h : Navigates nodes k g.store o edges) :
    ∃ rs, joinedReferences s g owner edges = .ok rs ∧ Lists s nodes k o rs := by
  obtain ⟨ps, hps, hnodup, hmem⟩ := exists_partners hg h
  have haccessors : (ps.map fun p => (entry s o p).accessor).Nodup := by
    refine List.Nodup.map_on (fun p hp q hq heq => ?_) hnodup
    exact partner_eq_of_accessor_eq hnodes ((hmem p).1 hp).shape ((hmem q).1 hq).shape heq
  refine ⟨_, ?_, ps, hnodup, hmem, rfl⟩
  rw [joinedReferences, steps_eq_ok hnodes ho hps haccessors fun p _ => List.not_mem_nil]
  rfl

/-! ## Records -/

/-- What the record of a table holds. -/
structure TableRecord (s : Schema) (nodes : List TableNode) (k : Nat) (t : TableSchema) (i : Nat) (r : PlannedTable) :
    Prop where
  name : r.name = t.name
  columns : r.columns = t.columns
  primaryKey : r.primaryKey = t.primaryKey
  foreignKeys : r.foreignKeys = t.foreignKeys
  refTables : r.refTables = tableReferences t
  refJoinedTables : Lists s nodes k (.singleton i) r.refJoinedTables

/-- What the record of a combination with the members `m` holds. -/
structure CombinationRecord (s : Schema) (nodes : List TableNode) (k : Nat) (m : IndexSet) (j : JoinedTable) :
    Prop where
  name : j.name = JoinedName.ofTables (s.namesOf m).sort
  tables : j.tables = (s.namesOf m).sort
  refTables : ∃ c, c.Faithful nodes ∧ c.members = m ∧ combinationReferences s c = .ok j.refTables
  refJoinedTables : Lists s nodes k m j.refJoinedTables

theorem tableRecord_eq_ok (hnodes : Notes s.size s.RefersAt nodes) (hg : Exact nodes k g)
    (ht : s.tables[i]? = some t) : ∃ r, tableRecord s g t i = .ok r ∧ TableRecord s nodes k t i r := by
  have hi : i < s.size := (List.getElem?_eq_some_iff.1 ht).1
  obtain ⟨edges, hedges, hnav⟩ := hg.tableEdges (hnodes.length ▸ hi)
  obtain ⟨rs, hrs, hlists⟩ := joinedReferences_eq_ok t.name hnodes hg.sound (Schema.inside_singleton hi) hnav
  refine ⟨⟨t.name, t.columns, t.primaryKey, t.foreignKeys, tableReferences t, rs⟩, ?_, rfl, rfl, rfl, rfl, rfl, hlists⟩
  rw [tableRecord, hedges]
  simp only [hrs, bind, Except.bind]
  rfl

theorem combinationRecord_eq_ok (hnodes : Notes s.size s.RefersAt nodes) (hg : Exact nodes k g)
    (hc : g.store.combinations[id]? = some c) (hw : 2 ≤ c.width) :
    ∃ j, combinationRecord s g c id = .ok j ∧ CombinationRecord s nodes k c.members j := by
  have hfaithful := hg.sound.faithful hc
  have hm := Schema.inside_of_isShape hnodes hfaithful.shape
  have hrefs := combinationReferences_eq hnodes hfaithful
  let names := (s.namesOf c.members).sort
  obtain ⟨rs, hrs, hlists⟩ := joinedReferences_eq_ok (JoinedName.ofTables names) hnodes hg.sound hm
    (hg.combinationEdges ⟨c, hc, rfl⟩ hw)
  refine ⟨⟨JoinedName.ofTables names, names, _, rs⟩, ?_, rfl, rfl, ⟨c, hfaithful, rfl, hrefs⟩, hlists⟩
  have hnames : memberNames s c = .ok names := memberNames_eq_ok hm
  simp only [combinationRecord, hnames, hrefs, hrs, bind, Except.bind]
  rfl

/-! ## Plans -/

/-- The plan of an exact join graph: a record for each table and one for each shape of several tables. -/
structure Describes (s : Schema) (nodes : List TableNode) (k : Nat) (p : Plan) : Prop where
  name : p.name = s.name
  joinNum : p.joinNum = k
  tables : List.Forall₂ (fun (t : TableSchema × Nat) r => TableRecord s nodes k t.1 t.2 r) s.tables.zipIdx p.tables
  joinedTables : ∃ (ms : List IndexSet) (js : List JoinedTable), ms.Nodup ∧
    (∀ m, m ∈ ms ↔ IsShape nodes m ∧ 2 ≤ m.size ∧ m.size ≤ k) ∧
    List.Forall₂ (CombinationRecord s nodes k) ms js ∧ p.joinedTables = JoinedTable.sorted js

/-- The combinations of several tables, with their positions. -/
def wide (g : JoinGraph) : List (Combination × Nat) :=
  g.store.combinations.toList.zipIdx.filter fun (c, _) => 2 ≤ c.width

theorem mem_wide : (c, id) ∈ wide g ↔ g.store.combinations[id]? = some c ∧ 2 ≤ c.width := by
  simp [wide, List.mk_mem_zipIdx_iff_getElem?]

/-- No two combinations of several tables have the same members. -/
theorem nodup_wide (hg : g.store.Sound nodes k) : ((wide g).map (·.1.members)).Nodup := by
  have hsub : ((wide g).map Prod.fst).Sublist g.store.combinations.toList := by
    conv_rhs => rw [← List.zipIdx_map_fst 0 g.store.combinations.toList]
    exact List.filter_sublist.map _
  have hnodup := (hsub.map Combination.members).nodup hg.coherent.nodup_members
  rwa [List.map_map] at hnodup

/-- The combinations of several tables are the shapes of several tables. -/
theorem mem_map_wide (hg : Exact nodes k g) :
    m ∈ (wide g).map (·.1.members) ↔ IsShape nodes m ∧ 2 ≤ m.size ∧ m.size ≤ k := by
  rw [List.mem_map]
  constructor
  · rintro ⟨⟨c, id⟩, hc, rfl⟩
    obtain ⟨hcid, hw⟩ := mem_wide.1 hc
    obtain ⟨hshape, hk⟩ := hg.holds_iff.1 ⟨id, c, hcid, rfl⟩
    exact ⟨hshape, hw, hk⟩
  · rintro ⟨hm, hw, hk⟩
    obtain ⟨id, c, hcid, rfl⟩ := hg.holds_iff.2 ⟨hm, hk⟩
    exact ⟨(c, id), mem_wide.2 ⟨hcid, hw⟩, rfl⟩

/-- The two loops of the assembly, one after the other. -/
theorem ofGraph_eq (hsize : s.size = g.nodes.size) : ofGraph s g =
    (s.tables.zipIdx.mapM fun x => tableRecord s g x.1 x.2) >>= fun tables =>
      ((wide g).mapM fun x => combinationRecord s g x.1 x.2) >>= fun js =>
        .ok ⟨s.name, g.joinNum, tables, JoinedTable.sorted js⟩ := by
  rw [ofGraph, if_neg (not_not_intro hsize)]
  rfl

/-- **An exact join graph of a schema has a plan.** -/
theorem ofGraph_eq_ok (hnodes : Notes s.size s.RefersAt nodes) (hg : Exact nodes k g) :
    ∃ p, ofGraph s g = .ok p ∧ Describes s nodes k p := by
  have hsize : s.size = g.nodes.size := by simp [hg.nodes_eq, hnodes.length]
  have htables : Settles (fun _ => False) (s.tables.zipIdx.mapM fun x => tableRecord s g x.1 x.2) fun rs =>
      List.Forall₂ (fun (t : TableSchema × Nat) r => TableRecord s nodes k t.1 t.2 r) s.tables.zipIdx rs := by
    refine Settles.mapM ?_
    rintro ⟨t, i⟩ hti
    obtain ⟨r, hr, hrecord⟩ := tableRecord_eq_ok hnodes hg (List.mk_mem_zipIdx_iff_getElem?.1 hti)
    rw [hr]
    exact hrecord
  have hjoined : Settles (fun _ => False) ((wide g).mapM fun x => combinationRecord s g x.1 x.2) fun js =>
      List.Forall₂ (fun (c : Combination × Nat) j => CombinationRecord s nodes k c.1.members j) (wide g) js := by
    refine Settles.mapM ?_
    rintro ⟨c, id⟩ hc
    obtain ⟨hcid, hw⟩ := mem_wide.1 hc
    obtain ⟨j, hj, hrecord⟩ := combinationRecord_eq_ok hnodes hg hcid hw
    rw [hj]
    exact hrecord
  obtain ⟨tables, htables, hrecords⟩ := htables.exists_ok
  obtain ⟨js, hjoined, hjs⟩ := hjoined.exists_ok
  refine ⟨⟨s.name, g.joinNum, tables, JoinedTable.sorted js⟩, ?_, rfl, hg.joinNum_eq, hrecords,
    (wide g).map (·.1.members), js, nodup_wide hg.sound, fun m => mem_map_wide hg, ?_, rfl⟩
  · rw [ofGraph_eq hsize, htables, ok_bind, hjoined, ok_bind]
  · exact List.forall₂_map_left_iff.2 hjs

end Plan
end JoinShapes
