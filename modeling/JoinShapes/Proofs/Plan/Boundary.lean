import JoinShapes.Proofs.Plan.Contents

/-!
# The references of a plan

A foreign key crosses the boundary of a set of tables if exactly one of its ends is in the set (`Crosses`). A joined
table has one reference for each declaration of a key that crosses the boundary of its members, to the table at the end
outside, and a table has one for each key that it declares (`refTables_exact`). So a key that is declared twice counts
twice, and a key between two members, or from a table to itself, does not count for a joined table.
-/

namespace JoinShapes

/-- All foreign keys with the tables that declare them, in order. -/
def Schema.declaredKeys (tables : List TableSchema) : List (TableSchema × ForeignKey) :=
  tables.flatMap fun t => t.foreignKeys.map (t, ·)

namespace Plan

variable {s : Schema} {k : Nat} {p : Plan} {j : JoinedTable} {t : TableSchema} {r : PlannedTable} {S : Finset String}

/-! ## Keys across a boundary -/

/-- Exactly one end of a foreign key is in `S`. -/
def Crosses (S : Finset String) (key : TableSchema × ForeignKey) : Prop :=
  Xor (key.1.name ∈ S) (key.2.refTable ∈ S)

instance (S : Finset String) : DecidablePred (Crosses S) := fun _ => inferInstanceAs (Decidable (Xor _ _))

/-- The end of a crossing key that is not in `S`. -/
def farEnd (S : Finset String) (key : TableSchema × ForeignKey) : String :=
  if key.1.name ∈ S then key.2.refTable else key.1.name

/-- The reference to the table `far` that a foreign key makes. Its condition reads from the declaring table to the
other, whichever of them is `far`. -/
def keyReference (far : String) (key : TableSchema × ForeignKey) : RefTable where
  table := far
  on := {
    leftTable := key.1.name
    leftColumn := key.2.column
    rightTable := key.2.refTable
    rightColumn := key.2.refColumn }

/-- The references of the keys among `keys` that cross the boundary of `S`, each as often as it stands there. -/
def boundary (keys : List (TableSchema × ForeignKey)) (S : Finset String) : List RefTable :=
  (keys.filter (Crosses S ·)).map fun key => keyReference (farEnd S key) key

/-- The end outside is outside. -/
theorem farEnd_notMem {key : TableSchema × ForeignKey} (h : Crosses S key) : farEnd S key ∉ S := by
  rcases h with ⟨hin, hout⟩ | ⟨hin, hout⟩
  · rwa [farEnd, if_pos hin]
  · rwa [farEnd, if_neg hout]

theorem crossingsOf_eq_boundary (S : Finset String) (t : TableSchema) :
    crossingsOf S t = boundary (t.foreignKeys.map (t, ·)) S := by
  rw [crossingsOf, boundary, List.filter_map, List.map_map, ← List.filterMap_eq_map, List.filterMap_filter]
  refine List.filterMap_congr fun fk _ => ?_
  by_cases ht : t.name ∈ S <;> by_cases hfk : fk.refTable ∈ S <;>
    simp [crossing?, Crosses, Xor, farEnd, keyReference, reference, ht, hfk]

/-- **The references across a boundary are those of the declared keys that cross it.** -/
theorem crossings_eq_boundary (ts : List TableSchema) (S : Finset String) :
    crossings ts S = boundary (Schema.declaredKeys ts) S := by
  rw [crossings, boundary, Schema.declaredKeys, List.filter_flatMap, List.map_flatMap]
  exact List.flatMap_congr fun t _ => crossingsOf_eq_boundary S t

/-- The reference of a key that crosses the boundary is to a table outside. -/
theorem table_notMem_of_mem_boundary {keys : List (TableSchema × ForeignKey)} {ref : RefTable}
    (h : ref ∈ boundary keys S) : ref.table ∉ S := by
  obtain ⟨key, hkey, rfl⟩ := List.mem_map.1 h
  obtain ⟨_, hcrosses⟩ := List.mem_filter.1 hkey
  exact farEnd_notMem (of_decide_eq_true hcrosses)

/-! ## References in order -/

/-- The references `refs` are those of `expected`, each as often, in order of the table and then of the four parts of
the condition. -/
structure Arranged (expected refs : List RefTable) : Prop where
  perm : refs.Perm expected
  ascending : refs.Pairwise fun a b =>
    [a.table, a.on.leftTable, a.on.leftColumn, a.on.rightTable, a.on.rightColumn] ≤
      [b.table, b.on.leftTable, b.on.leftColumn, b.on.rightTable, b.on.rightColumn]

theorem arranged_sorted (refs : List RefTable) : Arranged refs (RefTable.sorted refs) :=
  ⟨RefTable.sorted_perm refs, RefTable.pairwise_sorted refs⟩

/-- **The joined table of `S` has the references across the boundary of `S`.** -/
theorem JoinedTableFor.arranged (h : JoinedTableFor s k S j) :
    Arranged (boundary (Schema.declaredKeys s.tables) S) j.refTables := by
  rw [h.refTables, crossings_eq_boundary]
  exact arranged_sorted _

/-- **A table has the references of its keys.** -/
theorem PlannedTableFor.arranged (h : PlannedTableFor s k t r) :
    Arranged (t.foreignKeys.map fun fk => keyReference fk.refTable (t, fk)) r.refTables := by
  rw [h.refTables]
  exact arranged_sorted _

/-- **The references of a plan are those of the declared keys**: of a joined table those that cross the boundary of its
members, to the table outside, and of a table its own, to itself among them. Each declaration counts. -/
theorem refTables_exact (hk : 1 ≤ k) (hp : (ofSchema s k).outcome = .ok p) :
    (∀ j ∈ p.joinedTables, Arranged (boundary (Schema.declaredKeys s.tables) j.tables.toFinset) j.refTables ∧
      ∀ ref ∈ j.refTables, ref.table ∉ j.tables) ∧
    List.Forall₂ (fun t r => r.name = t.name ∧
      Arranged (t.foreignKeys.map fun fk => keyReference fk.refTable (t, fk)) r.refTables) s.tables p.tables := by
  have hplan := planFor_of_ofSchema_eq_ok hk hp
  refine ⟨fun j hj => ?_, hplan.tables.imp fun t r hr => ⟨hr.name, hr.arranged⟩⟩
  obtain ⟨S, _, hrecord⟩ := hplan.sound hj
  have harranged := hrecord.arranged
  rw [← hrecord.toFinset_tables] at harranged
  refine ⟨harranged, fun ref href => ?_⟩
  have hout := table_notMem_of_mem_boundary (harranged.perm.mem_iff.1 href)
  rwa [List.mem_toFinset] at hout

/-- Customers that were brought by customers, what they like best, their orders, and the items of these, declared
twice. -/
def market : Schema := .ofWellFormed "market" [
    ⟨"customer", [], ["id"], [⟨"brought_by", "customer", "id"⟩, ⟨"likes", "item", "id"⟩, ⟨"last", "order", "id"⟩]⟩,
    ⟨"item", [], ["id"], [⟨"order_id", "order", "id"⟩, ⟨"order_id", "order", "id"⟩]⟩,
    ⟨"order", [], ["id"], [⟨"customer_id", "customer", "id"⟩]⟩] (by decide)

theorem market_recorded : Recorded market 2 {"customer", "order"} where
  joinable := {
    named := by simp [market]
    connected := by
      rw [Finset.coe_insert, Finset.coe_singleton]
      have hrefers : market.Refers "order" "customer" := by simp [market, Schema.Refers]
      exact (connectedBy_singleton "order").insert rfl (.inl hrefers) }
  two_le := by decide
  le := by decide

/-- Of the keys of the market three cross the boundary of customers and orders, two of them as one declared twice; the
keys between the two, and of customers to customers, do not. -/
theorem market_refTables : 1 ≤ 2 ∧ ∃ p, (ofSchema market 2).outcome = .ok p ∧ ∃ j ∈ p.joinedTables,
    j.tables = ({"customer", "order"} : Finset String).sort ∧
    j.refTables.Perm [⟨"item", ⟨"customer", "likes", "item", "id"⟩⟩, ⟨"item", ⟨"item", "order_id", "order", "id"⟩⟩,
      ⟨"item", ⟨"item", "order_id", "order", "id"⟩⟩] := by
  obtain ⟨p, hp⟩ : ∃ p, (ofSchema market 2).outcome = .ok p :=
    ofSchema_eq_ok (by decide) (by decide) (Fingerprint.le_maxExactWidth (by decide) (by decide))
  obtain ⟨j, hj, hrecord⟩ := (planFor_of_ofSchema_eq_ok (by decide) hp).complete market_recorded
  have hperm := ((refTables_exact (by decide) hp).1 j hj).1.perm
  rw [hrecord.toFinset_tables] at hperm
  have hboundary : boundary (Schema.declaredKeys market.tables) {"customer", "order"} =
      [⟨"item", ⟨"customer", "likes", "item", "id"⟩⟩, ⟨"item", ⟨"item", "order_id", "order", "id"⟩⟩,
        ⟨"item", ⟨"item", "order_id", "order", "id"⟩⟩] := by decide
  exact ⟨by decide, p, hp, j, hj, hrecord.tables, hboundary ▸ hperm⟩

end Plan
end JoinShapes
