import JoinShapes.Proofs.Shape

/-!
# Derivations of combinations

A combination is made from single tables, by taking in one more table or by merging two of them (`Derivation`). How it
was made does not show: a derivation has a result exactly if it takes no table twice (`exists_result?_iff`), and then
the members are the tables that it takes, and the extensions are the other tables that one of them names
(`comprises_result?`). Taking in a table is merging with it alone, and merging is commutative and associative, also in
what it refuses (`Combination.merge_singleton`, `Combination.merge_comm`, `Combination.merge_assoc`). So one derivation
is as good as another with the same members (`interchangeable`).
-/

namespace JoinShapes

variable {nodes ns ns' : List TableNode} {n : TableNode} {c d e : Combination} {m m' near near' : IndexSet}

namespace Combination

/-! ## Merging -/

theorem ofParts_congr (hm : ∀ i, i ∈ m ↔ i ∈ m') (hnear : ∀ j, j ∉ m → (j ∈ near ↔ j ∈ near')) :
    ofParts m near = ofParts m' near' := by
  obtain rfl : m = m' := IndexSet.ext hm
  have hsdiff : near.sdiff m = near'.sdiff m := IndexSet.ext fun j => by
    rw [IndexSet.mem_sdiff, IndexSet.mem_sdiff]
    exact and_congr_left (hnear j)
  rw [ofParts, ofParts, hsdiff]

theorem merge_eq_some_iff : c.merge d = some e ↔ (∀ i, i ∈ c.members → i ∉ d.members) ∧
    e = ofParts (c.members.union d.members) (c.extensions.union d.extensions) := by
  refine ⟨merge_eq_some, ?_⟩
  rintro ⟨hdisjoint, rfl⟩
  rw [merge, if_pos (IndexSet.isDisjoint_iff.2 hdisjoint)]

/-- **Merging is commutative.** -/
theorem merge_comm (c d : Combination) : c.merge d = d.merge c := by
  refine Option.ext fun e => ?_
  rw [merge_eq_some_iff, merge_eq_some_iff, IndexSet.union_comm d.members, IndexSet.union_comm d.extensions]
  exact and_congr_left fun _ => IndexSet.apart_comm

/-- What two merges in a row give: no two of the three share a member, and what was next to one of them and is no member
by then is next to the result. -/
theorem merge_bind_eq_some_iff {f : Combination} : (c.merge d).bind (·.merge e) = some f ↔
    ((∀ i, i ∈ c.members → i ∉ d.members) ∧ (∀ i, i ∈ c.members → i ∉ e.members) ∧
      ∀ i, i ∈ d.members → i ∉ e.members) ∧
    f = ofParts ((c.members.union d.members).union e.members)
      ((c.extensions.union d.extensions).union e.extensions) := by
  simp only [Option.bind_eq_some_iff, merge_eq_some_iff]
  constructor
  · rintro ⟨_, ⟨hcd, rfl⟩, hlast, rfl⟩
    have hparts : ∀ i, i ∈ c.members ∨ i ∈ d.members → i ∉ e.members := by simpa [ofParts] using hlast
    refine ⟨⟨hcd, fun i hi => hparts i (.inl hi), fun i hi => hparts i (.inr hi)⟩, ?_⟩
    refine ofParts_congr (fun i => by simp [ofParts]) fun j hj => ?_
    have hj' : j ∉ c.members ∧ j ∉ d.members ∧ j ∉ e.members := by simpa [ofParts, and_assoc] using hj
    simp [ofParts, hj']
  · rintro ⟨⟨hcd, hce, hde⟩, rfl⟩
    refine ⟨_, ⟨hcd, rfl⟩, fun i hi => ?_, ?_⟩
    · rcases IndexSet.mem_union.1 hi with hi | hi
      · exact hce i hi
      · exact hde i hi
    · refine ofParts_congr (fun i => by simp [ofParts]) fun j hj => ?_
      have hj' : (j ∉ c.members ∧ j ∉ d.members) ∧ j ∉ e.members := by simpa [ofParts] using hj
      simp [ofParts, hj']

/-- **Merging is associative**, also in what it refuses. -/
theorem merge_assoc (c d e : Combination) : (c.merge d).bind (·.merge e) = (d.merge e).bind c.merge := by
  have hswap : (d.merge e).bind c.merge = (d.merge e).bind (·.merge c) :=
    congrArg ((d.merge e).bind ·) (funext fun x => merge_comm c x)
  refine Option.ext fun f => ?_
  rw [hswap, merge_bind_eq_some_iff, merge_bind_eq_some_iff, IndexSet.union_comm _ c.members,
    IndexSet.union_comm _ c.extensions, ← IndexSet.union_assoc, ← IndexSet.union_assoc]
  refine and_congr_left fun _ => ⟨fun ⟨hcd, hce, hde⟩ => ?_, fun ⟨hde, hdc, hec⟩ => ?_⟩
  · exact ⟨hde, IndexSet.apart_comm.1 hcd, IndexSet.apart_comm.1 hce⟩
  · exact ⟨IndexSet.apart_comm.1 hdc, IndexSet.apart_comm.1 hec, hde⟩

/-- **Taking in a table is merging with it alone.** -/
theorem merge_singleton (c : Combination) (n : TableNode) : c.merge (singleton n) = c.grow n := by
  by_cases hn : n.index ∈ c.members
  · rw [grow_eq_none_iff.2 hn]
    exact merge_eq_none_iff.2 ⟨n.index, hn, IndexSet.mem_singleton.2 rfl⟩
  · rw [grow, if_neg hn, merge_eq_some_iff]
    refine ⟨fun i hi hi' => hn (IndexSet.mem_singleton.1 hi' ▸ hi), ?_⟩
    refine ofParts_congr (fun i => by simp [or_comm]) fun j hj => ?_
    have hj' : j ≠ n.index ∧ j ∉ c.members := by simpa using hj
    simp [singleton, ofParts, hj'.1]

end Combination

/-! ## Derivations -/

/-- How a combination is made from tables. -/
inductive Derivation
  | single (n : TableNode)
  | grow (d : Derivation) (n : TableNode)
  | merge (d e : Derivation)

namespace Derivation

/-- The tables that a derivation takes, as often as it takes them. -/
def leaves : Derivation → List TableNode
  | .single n => [n]
  | .grow d n => d.leaves ++ [n]
  | .merge d e => d.leaves ++ e.leaves

/-- The combination that a derivation makes, if no step is refused. -/
def result? : Derivation → Option Combination
  | .single n => some (.singleton n)
  | .grow d n => d.result?.bind (·.grow n)
  | .merge d e => d.result?.bind fun c => e.result?.bind c.merge

end Derivation

/-- The combination of the tables `ns`, each of them once: their indices, and the other indices that they name. -/
structure Combination.Comprises (ns : List TableNode) (c : Combination) : Prop where
  mem_members : ∀ {i}, i ∈ c.members ↔ ∃ n ∈ ns, n.index = i
  mem_extensions : ∀ {j}, j ∈ c.extensions ↔ (∃ n ∈ ns, j ∈ n.neighbors) ∧ j ∉ c.members
  width : c.width = ns.length
  memo : c.memo = none

namespace Combination

theorem comprises_singleton (n : TableNode) : (singleton n).Comprises [n] where
  mem_members := by simp [eq_comm]
  mem_extensions := by simp [singleton, ofParts]
  width := rfl
  memo := rfl

/-- **Merging puts the tables of both sides together.** -/
theorem Comprises.merge (hc : c.Comprises ns) (hd : d.Comprises ns') (h : c.merge d = some e) :
    e.Comprises (ns ++ ns') := by
  obtain ⟨hdisjoint, rfl⟩ := merge_eq_some_iff.1 h
  constructor
  · intro i
    simp [ofParts, hc.mem_members, hd.mem_members, or_and_right, exists_or]
  · intro j
    simp only [ofParts, IndexSet.mem_sdiff, IndexSet.mem_union, hc.mem_extensions, hd.mem_extensions]
    refine and_congr_left fun hj => ?_
    obtain ⟨hjc, hjd⟩ := not_or.1 hj
    simp [hjc, hjd, or_and_right, exists_or]
  · calc (ofParts (c.members.union d.members) (c.extensions.union d.extensions)).width
      _ = c.width + d.width := IndexSet.size_union hdisjoint
      _ = (ns ++ ns').length := by rw [hc.width, hd.width, List.length_append]
  · rfl

end Combination

namespace Derivation

variable {d d' e : Derivation} {c c' f : Combination}

theorem result?_merge_eq_some_iff : (d.merge e).result? = some f ↔
    ∃ c c', d.result? = some c ∧ e.result? = some c' ∧ c.merge c' = some f := by
  simp only [result?, Option.bind_eq_some_iff]
  constructor
  · rintro ⟨c, hc, c', hc', hf⟩
    exact ⟨c, c', hc, hc', hf⟩
  · rintro ⟨c, c', hc, hc', hf⟩
    exact ⟨c, hc, c', hc', hf⟩

/-- To take in a table is to merge with it alone. -/
theorem result?_grow (d : Derivation) (n : TableNode) : (d.grow n).result? = (d.merge (.single n)).result? := by
  simp only [result?, Option.bind_some, Combination.merge_singleton]

/-- **A derivation makes the combination of the tables that it takes.** -/
theorem comprises_result? (h : d.result? = some c) : c.Comprises d.leaves := by
  induction d generalizing c with
  | single n =>
    cases h
    exact Combination.comprises_singleton n
  | grow d n ih =>
    rw [result?_grow] at h
    obtain ⟨c₁, c₂, hd, hn, hmerge⟩ := result?_merge_eq_some_iff.1 h
    cases hn
    exact (ih hd).merge (Combination.comprises_singleton n) hmerge
  | merge d e ihd ihe =>
    obtain ⟨c₁, c₂, hd, he, hmerge⟩ := result?_merge_eq_some_iff.1 h
    exact (ihd hd).merge (ihe he) hmerge

/-- A merge is refused only for a table of both sides. -/
theorem exists_result?_merge (hd : (∃ c, d.result? = some c) ↔ (d.leaves.map (·.index)).Nodup)
    (he : (∃ c, e.result? = some c) ↔ (e.leaves.map (·.index)).Nodup) :
    (∃ c, (d.merge e).result? = some c) ↔ ((d.merge e).leaves.map (·.index)).Nodup := by
  rw [leaves, List.map_append, List.nodup_append, ← hd, ← he]
  constructor
  · rintro ⟨f, hf⟩
    obtain ⟨c, c', hc, hc', hmerge⟩ := result?_merge_eq_some_iff.1 hf
    refine ⟨⟨c, hc⟩, ⟨c', hc'⟩, ?_⟩
    rintro i hi _ hi' rfl
    exact (Combination.merge_eq_some hmerge).1 i ((comprises_result? hc).mem_members.2 (List.mem_map.1 hi))
      ((comprises_result? hc').mem_members.2 (List.mem_map.1 hi'))
  · rintro ⟨⟨c, hc⟩, ⟨c', hc'⟩, hapart⟩
    have hdisjoint : ∀ i, i ∈ c.members → i ∉ c'.members := by
      intro i hi hi'
      exact hapart i (List.mem_map.2 ((comprises_result? hc).mem_members.1 hi)) i
        (List.mem_map.2 ((comprises_result? hc').mem_members.1 hi')) rfl
    exact ⟨_, result?_merge_eq_some_iff.2 ⟨c, c', hc, hc', Combination.merge_eq_some_iff.2 ⟨hdisjoint, rfl⟩⟩⟩

/-- **A derivation is refused exactly if it takes a table twice.** -/
theorem exists_result?_iff (d : Derivation) : (∃ c, d.result? = some c) ↔ (d.leaves.map (·.index)).Nodup := by
  have hsingle (n : TableNode) :
      (∃ c, (single n).result? = some c) ↔ ((single n).leaves.map (·.index)).Nodup := by
    simp [result?, leaves]
  induction d with
  | single n => exact hsingle n
  | grow d n ih =>
    rw [result?_grow]
    exact exists_result?_merge ih (hsingle n)
  | merge d e ihd ihe => exact exists_result?_merge ihd ihe

/-! ## Tables of one list -/

/-- The combination of the tables `ns` among `nodes`: its extensions can be told from its members. -/
structure Made (nodes ns : List TableNode) (c : Combination) : Prop where
  mem_members : ∀ i, i ∈ c.members ↔ ∃ n ∈ ns, n.index = i
  width : c.width = ns.length
  mem_extensions : ∀ j, j ∈ c.extensions ↔ (∃ n ∈ nodes, n.index ∈ c.members ∧ j ∈ n.neighbors) ∧ j ∉ c.members

/-- The members of a derivation are the tables that it takes. -/
theorem index_mem_members_iff (hnodes : (nodes.map (·.index)).Nodup) (hd : d.leaves ⊆ nodes)
    (h : d.result? = some c) (hn : n ∈ nodes) : n.index ∈ c.members ↔ n ∈ d.leaves := by
  rw [(comprises_result? h).mem_members]
  constructor
  · rintro ⟨n', hn', heq⟩
    exact List.inj_on_of_nodup_map hnodes (hd hn') hn heq ▸ hn'
  · intro hn'
    exact ⟨n, hn', rfl⟩

theorem made_result? (hnodes : (nodes.map (·.index)).Nodup) (hd : d.leaves ⊆ nodes) (h : d.result? = some c) :
    Made nodes d.leaves c where
  mem_members _ := (comprises_result? h).mem_members
  width := (comprises_result? h).width
  mem_extensions j := by
    rw [(comprises_result? h).mem_extensions]
    refine and_congr_left fun _ => ⟨?_, ?_⟩
    · rintro ⟨n, hn, hj⟩
      exact ⟨n, hd hn, (index_mem_members_iff hnodes hd h (hd hn)).2 hn, hj⟩
    · rintro ⟨n, hn, hmem, hj⟩
      exact ⟨n, (index_mem_members_iff hnodes hd h hn).1 hmem, hj⟩

/-- **The members determine the combination.** -/
theorem eq_of_members_eq (hnodes : (nodes.map (·.index)).Nodup) (hd : d.leaves ⊆ nodes) (he : e.leaves ⊆ nodes)
    (h : d.result? = some c) (h' : e.result? = some c') (hm : c.members = c'.members) : c = c' := by
  have hext : c.extensions = c'.extensions := IndexSet.ext fun j => by
    rw [(made_result? hnodes hd h).mem_extensions, (made_result? hnodes he h').mem_extensions, hm]
  have hmemo : c.memo = c'.memo := (comprises_result? h).memo.trans (comprises_result? h').memo.symm
  calc c
    _ = ⟨c.members, c.extensions, c.memo⟩ := rfl
    _ = ⟨c'.members, c'.extensions, c'.memo⟩ := by rw [hm, hext, hmemo]
    _ = c' := rfl

/-! ## The laws, and all of it together -/

theorem result?_merge_comm (d e : Derivation) : (d.merge e).result? = (e.merge d).result? := by
  simp only [result?]
  cases d.result? <;> cases e.result? <;> simp [Combination.merge_comm]

theorem result?_merge_assoc (d e d' : Derivation) :
    ((d.merge e).merge d').result? = (d.merge (e.merge d')).result? := by
  simp only [result?]
  cases d.result? with
  | none => rfl
  | some c =>
    cases e.result? with
    | none => rfl
    | some c₁ =>
      cases d'.result? with
      | none => simp
      | some c₂ => exact Combination.merge_assoc c c₁ c₂

/-- **Derivations are interchangeable.** Over tables with different indices a derivation is refused exactly if it takes
a table twice, and otherwise it makes the combination of the tables that it takes: a further table is refused exactly if
it is a member, another such combination exactly if there is a common member, and two with the same members are the
same. Merging is commutative and associative, and merging with a single table is taking it in. -/
theorem interchangeable (hnodes : (nodes.map (·.index)).Nodup) :
    (∀ d : Derivation, d.leaves ⊆ nodes → ((∃ c, d.result? = some c) ↔ d.leaves.Nodup) ∧
      ∀ c, d.result? = some c → Made nodes d.leaves c ∧
        (∀ n ∈ nodes, (c.grow n = none ↔ n.index ∈ c.members) ∧ (n.index ∈ c.members ↔ n ∈ d.leaves)) ∧
        ∀ (e : Derivation) (c' : Combination), e.leaves ⊆ nodes → e.result? = some c' →
          (c.merge c' = none ↔ ∃ i ∈ c.members, i ∈ c'.members) ∧ (c.members = c'.members → c = c')) ∧
    ∀ (d e d' : Derivation) (n : TableNode), (d.merge e).result? = (e.merge d).result? ∧
      ((d.merge e).merge d').result? = (d.merge (e.merge d')).result? ∧
      (d.merge (.single n)).result? = (d.grow n).result? := by
  refine ⟨fun d hd => ⟨?_, fun c h => ⟨made_result? hnodes hd h, fun n hn => ?_, fun e c' he h' => ?_⟩⟩, ?_⟩
  · rw [exists_result?_iff]
    have hinj : ∀ n ∈ d.leaves, ∀ n' ∈ d.leaves, n.index = n'.index → n = n' := fun n hn n' hn' =>
      List.inj_on_of_nodup_map hnodes (hd hn) (hd hn')
    exact ⟨fun h => h.of_map, fun h => h.map_on hinj⟩
  · exact ⟨Combination.grow_eq_none_iff, index_mem_members_iff hnodes hd h hn⟩
  · exact ⟨Combination.merge_eq_none_iff, eq_of_members_eq hnodes hd he h h'⟩
  · exact fun d e d' n => ⟨result?_merge_comm d e, result?_merge_assoc d e d', (result?_grow d n).symm⟩

/-- A table that refers to itself and to `post`. -/
def comment : TableNode := ⟨7, .ofList [3, 7], .ofList [7]⟩

def post : TableNode := ⟨3, .ofList [12], .ofList [7]⟩

def author : TableNode := ⟨9, .empty, .ofList [5]⟩

/-- Two ways to put three tables together: one combination, whose extensions are the tables that are none of the three,
also where a table was an extension on the way. -/
theorem comment_post_author_interchangeable :
    ([comment, post, author].map (·.index)).Nodup ∧
    ∃ c, (((single post).grow comment).merge (single author)).result? = some c ∧
      (((single author).merge (single comment)).grow post).result? = some c ∧
      c.width = 3 ∧ (∀ j, j ∈ c.extensions ↔ j = 12 ∨ j = 5) ∧ c.grow comment = none := by
  have hnodes : ([comment, post, author].map (·.index)).Nodup := by decide
  obtain ⟨hover, _⟩ := interchangeable hnodes
  obtain ⟨hdefined, hresult⟩ := hover (((single post).grow comment).merge (single author)) (by simp [leaves])
  obtain ⟨hdefined', hresult'⟩ := hover (((single author).merge (single comment)).grow post) (by simp [leaves])
  obtain ⟨c, hc⟩ := hdefined.2 (.of_map (·.index) (by decide))
  obtain ⟨c', hc'⟩ := hdefined'.2 (.of_map (·.index) (by decide))
  obtain ⟨hmade, hgrow, hmerge⟩ := hresult c hc
  have hmembers (i : Nat) : i ∈ c.members ↔ i = 3 ∨ i = 7 ∨ i = 9 := by
    rw [hmade.mem_members]
    simp [leaves, comment, post, author, eq_comm]
  have hmembers' (i : Nat) : i ∈ c'.members ↔ i = 9 ∨ i = 7 ∨ i = 3 := by
    rw [(hresult' c' hc').1.mem_members]
    simp [leaves, comment, post, author, eq_comm]
  have hsame : c = c' := by
    refine (hmerge _ c' (by simp [leaves]) hc').2 (IndexSet.ext fun i => ?_)
    rw [hmembers, hmembers']
    omega
  have hnear (j : Nat) : (∃ n ∈ [comment, post, author], n.index ∈ c.members ∧ j ∈ n.neighbors) ↔
      (j = 3 ∨ j = 7) ∨ (j = 12 ∨ j = 7) ∨ j = 5 := by
    simp [hmembers, TableNode.neighbors, comment, post, author]
  refine ⟨hnodes, c, hc, hsame ▸ hc', hmade.width, fun j => ?_, ?_⟩
  · rw [hmade.mem_extensions, hnear, hmembers]
    omega
  · exact (hgrow comment (by simp)).1.2 ((hmembers 7).2 (by simp))

end Derivation
end JoinShapes
