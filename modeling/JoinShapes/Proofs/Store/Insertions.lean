import Mathlib.Algebra.GroupWithZero.Nat
import JoinShapes.Proofs.Store

/-!
# Runs of insertions

A store that begins empty and takes in combinations one after the other stays coherent, whether an insertion finds the
members, appends the combination or is refused (`Coherent.insertAll`). A coherent store does what its queries promise
(`Coherent.indexed`): they list exactly the positions asked for, in order, and the histogram counts every combination
once. So each store that a run comes by keeps its promises, and positions once handed out stay (`insertAll_indexed`).
-/

namespace JoinShapes

/-- A candidate for stores of `n` tables: the members are tables, and a remembered fingerprint is that of the members
among `n` tables. -/
structure Combination.BelongsTo (c : Combination) (n : Nat) : Prop where
  inside : ∀ i ∈ c.members, i < n
  memo : ∀ f, c.memo = some f → f = .ofAscending n c.members.toList

theorem Combination.BelongsTo.fingerprint_eq {c : Combination} {n : Nat} (h : c.BelongsTo n) :
    c.fingerprint n = .ofAscending n c.members.toList := by
  rw [fingerprint]
  cases hmemo : c.memo with
  | none => rfl
  | some f => exact h.memo f hmemo

namespace Store

variable {s t : Store} {c : Combination} {calls : List (Phase × Combination)} {id n k i w : Nat} {counts ws : List Nat}
variable {f : Fingerprint} {phase : Phase}

/-- The store after one insertion for each of the calls, whichever of them are refused. -/
def insertAll (s : Store) (calls : List (Phase × Combination)) : Store :=
  calls.foldl (fun s call => (s.insert call.1 call.2).1) s

/-! ## Steps -/

/-- The remembered fingerprint is that of the members. -/
theorem Coherent.fingerprint_eq (hs : s.Coherent) (hc : s.combinations[id]? = some c) :
    c.fingerprint s.tableNum = .ofAscending s.tableNum c.members.toList := by
  rw [Combination.fingerprint, hs.memo hc, Option.getD_some]

/-- What a store refuses: a width outside its bound, and the fingerprint of a stored combination of other members. -/
def Refuses (s : Store) (c : Combination) : Prop :=
  (c.width = 0 ∨ s.joinNum < c.width) ∨ ∃ (id : Nat) (d : Combination), s.combinations[id]? = some d ∧
    d.members ≠ c.members ∧ d.fingerprint s.tableNum = c.fingerprint s.tableNum

/-- **One insertion** finds the members, appends the combination, or refuses it and leaves the store as it is. -/
theorem Coherent.insert_step (hs : s.Coherent) (phase : Phase) (hc : c.BelongsTo s.tableNum) :
    (∃ id, s.At id c.members ∧ s.insert phase c = (s, .ok (id, false))) ∨
    (¬ s.Holds c.members ∧ ∃ t, s.Pushes t (c.fingerprinted s.tableNum) ∧ t.Coherent ∧
      s.insert phase c = (t, .ok (s.size, true))) ∨
    s.Refuses c ∧ ∃ e, s.insert phase c = (s, .error e) := by
  by_cases hwidth : c.width = 0 ∨ s.joinNum < c.width
  · exact .inr (.inr ⟨.inl hwidth, _, by rw [Store.insert, if_pos hwidth]⟩)
  · rw [not_or, Nat.not_lt] at hwidth
    rcases hs.insert_cases phase hc.fingerprint_eq hc.inside (Nat.pos_of_ne_zero hwidth.1) hwidth.2 with
      hfound | hpushed | ⟨id, m, ⟨d, hd, rfl⟩, hne, hf, hrefused⟩
    · exact .inl hfound
    · exact .inr (.inl hpushed)
    · rw [← hs.fingerprint_eq hd, ← hc.fingerprint_eq] at hf
      exact .inr (.inr ⟨.inr ⟨id, d, hd, hne, hf⟩, _, hrefused⟩)

theorem Coherent.insert (hs : s.Coherent) (phase : Phase) (hc : c.BelongsTo s.tableNum) :
    (s.insert phase c).1.Coherent ∧ Extends (fun _ => True) s (s.insert phase c).1 := by
  rcases hs.insert_step phase hc with ⟨_, _, hins⟩ | ⟨_, t, hpush, ht, hins⟩ | ⟨_, _, hins⟩ <;> rw [hins]
  · exact ⟨hs, .refl _ s⟩
  · exact ⟨ht, hpush.extends.mono fun _ _ => trivial⟩
  · exact ⟨hs, .refl _ s⟩

/-- **A run of insertions** keeps a store coherent and its positions as they are. -/
theorem Coherent.insertAll (hs : s.Coherent) (hcalls : ∀ call ∈ calls, call.2.BelongsTo s.tableNum) :
    (s.insertAll calls).Coherent ∧ Extends (fun _ => True) s (s.insertAll calls) := by
  induction calls generalizing s with
  | nil => exact ⟨hs, .refl _ s⟩
  | cons call calls ih =>
    obtain ⟨hcall, hrest⟩ := List.forall_mem_cons.1 hcalls
    obtain ⟨ht, hext⟩ := hs.insert call.1 hcall
    obtain ⟨hu, hext'⟩ := ih ht (hext.tableNum.symm ▸ hrest)
    exact ⟨hu, hext.trans hext'⟩

/-! ## Counting -/

theorem length_countWidth : (countWidth counts w).length = counts.length := List.length_modify ..

/-- A width within the range is counted at its place. -/
theorem getElem?_countWidth (hw : 1 ≤ w) :
    (countWidth counts w)[i]? = counts[i]?.map (· + if w = i + 1 then 1 else 0) := by
  rw [countWidth, List.getElem?_modify]
  by_cases h : w = i + 1
  · simp [h]
  · have h' : w - 1 ≠ i := by omega
    simp [h, h']

theorem sum_modify_add_one (h : i < counts.length) : (counts.modify i (· + 1)).sum = counts.sum + 1 := by
  induction counts generalizing i with
  | nil => simp at h
  | cons a counts ih =>
    cases i with
    | zero => simp; omega
    | succ i => simp [ih (Nat.lt_of_succ_lt_succ h)]; omega

/-- **Counting widths one after the other** counts how often each occurs, and altogether all of them. -/
theorem foldl_countWidth (hws : ∀ w ∈ ws, 1 ≤ w ∧ w ≤ counts.length) :
    (ws.foldl countWidth counts).length = counts.length ∧
    (∀ i, (ws.foldl countWidth counts)[i]? = counts[i]?.map (· + ws.count (i + 1))) ∧
    (ws.foldl countWidth counts).sum = counts.sum + ws.length := by
  induction ws generalizing counts with
  | nil => simp
  | cons w ws ih =>
    obtain ⟨⟨hpos, hle⟩, hrest⟩ := List.forall_mem_cons.1 hws
    have hrest' : ∀ v ∈ ws, 1 ≤ v ∧ v ≤ (countWidth counts w).length := length_countWidth.symm ▸ hrest
    obtain ⟨hlength, hcount, hsum⟩ := ih hrest'
    rw [List.foldl_cons]
    refine ⟨hlength.trans length_countWidth, fun i => ?_, ?_⟩
    · rw [hcount, getElem?_countWidth hpos, Option.map_map, List.count_cons]
      congr 1
      funext a
      simp only [Function.comp_apply, beq_iff_eq]
      omega
    · rw [hsum, countWidth, sum_modify_add_one (by omega), List.length_cons]
      omega

theorem widthHistogram_eq (s : Store) :
    s.widthHistogram = (s.combinations.toList.map Combination.width).foldl countWidth (List.replicate s.joinNum 0) := by
  rw [widthHistogram, ← Array.foldl_toList, List.foldl_map]

/-! ## Promises -/

/-- What the queries of a store promise. -/
structure Indexed (s : Store) : Prop where
  width : ∀ {id : Nat} {c : Combination}, s.combinations[id]? = some c → 1 ≤ c.width ∧ c.width ≤ s.joinNum
  /-- No two positions have the same members. -/
  members_inj : ∀ {id id' : Nat} {c d : Combination}, s.combinations[id]? = some c → s.combinations[id']? = some d →
    c.members = d.members → id = id'
  /-- No two positions have the same fingerprint. -/
  fingerprint_inj : ∀ {id id' : Nat} {c d : Combination}, s.combinations[id]? = some c →
    s.combinations[id']? = some d → c.fingerprint s.tableNum = d.fingerprint s.tableNum → id = id'
  lookup : ∀ {f id}, s.lookup f = some id ↔ ∃ c, s.combinations[id]? = some c ∧ c.fingerprint s.tableNum = f
  mem_cached : ∀ {i w id}, id ∈ s.cached i w ↔ ∃ c, s.combinations[id]? = some c ∧ c.width = w ∧ i ∈ c.members
  cached_ascending : ∀ i w, (s.cached i w).Pairwise (· < ·)
  /-- There is nothing outside the tables and the widths of the store. -/
  cached_outside : ∀ {i w}, s.tableNum ≤ i ∨ w = 0 ∨ s.joinNum < w → s.cached i w = []
  mem_cachedUpTo : ∀ {i w id}, id ∈ s.cachedUpTo i w ↔
    ∃ c, s.combinations[id]? = some c ∧ c.width ≤ w ∧ i ∈ c.members
  /-- Narrower combinations come first, and those of one width by position. -/
  cachedUpTo_ascending : ∀ i w, (s.cachedUpTo i w).Pairwise fun id id' => ∀ c d : Combination,
    s.combinations[id]? = some c → s.combinations[id']? = some d → c.width < d.width ∨ c.width = d.width ∧ id < id'
  cachedUpTo_nodup : ∀ i w, (s.cachedUpTo i w).Nodup
  /-- Each stored width has its place in the histogram. -/
  histogram_range : ∀ {id : Nat} {c : Combination}, s.combinations[id]? = some c →
    c.width - 1 < s.widthHistogram.length
  histogram_length : s.widthHistogram.length = s.joinNum
  histogram_count : ∀ {w}, 1 ≤ w → w ≤ s.joinNum →
    s.widthHistogram[w - 1]? = some (s.combinations.countP fun c => c.width == w)
  histogram_sum : s.widthHistogram.sum = s.size

/-- What is asked of the members at a position is asked of the combination there. -/
theorem exists_at_iff {P : IndexSet → Prop} :
    (∃ m, s.At id m ∧ P m) ↔ ∃ c, s.combinations[id]? = some c ∧ P c.members := by
  constructor
  · rintro ⟨_, ⟨c, hc, rfl⟩, hP⟩
    exact ⟨c, hc, hP⟩
  · rintro ⟨c, hc, hP⟩
    exact ⟨c.members, ⟨c, hc, rfl⟩, hP⟩

theorem cached_ascending (s : Store) (i w : Nat) : (s.cached i w).Pairwise (· < ·) := by
  rw [cached]
  split
  · exact IndexSet.ascending _
  · exact .nil

namespace Coherent

theorem width_bounds (hs : s.Coherent) (hc : s.combinations[id]? = some c) : 1 ≤ c.width ∧ c.width ≤ s.joinNum :=
  hs.width ⟨c, hc, rfl⟩

theorem lookup_iff (hs : s.Coherent) :
    s.lookup f = some id ↔ ∃ c, s.combinations[id]? = some c ∧ c.fingerprint s.tableNum = f := by
  rw [hs.lookup, exists_at_iff]
  refine exists_congr fun c => and_congr_right fun hc => ?_
  rw [hs.fingerprint_eq hc]

theorem mem_cached_iff (hs : s.Coherent) :
    id ∈ s.cached i w ↔ ∃ c, s.combinations[id]? = some c ∧ c.width = w ∧ i ∈ c.members :=
  hs.cached.trans exists_at_iff

theorem mem_cachedUpTo_iff (hs : s.Coherent) :
    id ∈ s.cachedUpTo i w ↔ ∃ c, s.combinations[id]? = some c ∧ c.width ≤ w ∧ i ∈ c.members :=
  hs.mem_cachedUpTo.trans exists_at_iff

theorem cached_eq_nil (hs : s.Coherent) (h : s.tableNum ≤ i ∨ w = 0 ∨ s.joinNum < w) : s.cached i w = [] := by
  refine List.eq_nil_iff_forall_not_mem.2 fun id hid => ?_
  obtain ⟨m, hm, rfl, hi⟩ := hs.cached.1 hid
  have hlt := hs.inside hm i hi
  have hwidth := hs.width hm
  omega

/-- **The positions up to a width come by width, then by position.** -/
theorem pairwise_cachedUpTo (hs : s.Coherent) (i w : Nat) :
    (s.cachedUpTo i w).Pairwise fun id id' => ∀ c d : Combination, s.combinations[id]? = some c →
      s.combinations[id']? = some d → c.width < d.width ∨ c.width = d.width ∧ id < id' := by
  have hwidth : ∀ {v id : Nat} {c : Combination}, id ∈ s.cached i v → s.combinations[id]? = some c → c.width = v := by
    intro v id c hid hc
    obtain ⟨d, hd, hv, _⟩ := hs.mem_cached_iff.1 hid
    rw [hc] at hd
    cases hd
    exact hv
  refine List.pairwise_flatMap.2 ⟨fun v _ => ?_, ?_⟩
  · refine (cached_ascending s i v).imp_of_mem fun hid hid' hlt c d hc hd => .inr ⟨?_, hlt⟩
    rw [hwidth hid hc, hwidth hid' hd]
  · refine (List.pairwise_lt_range' ..).imp fun hlt id hid id' hid' c d hc hd => .inl ?_
    rwa [hwidth hid hc, hwidth hid' hd]

theorem nodup_cachedUpTo (hs : s.Coherent) (i w : Nat) : (s.cachedUpTo i w).Nodup := by
  refine (hs.pairwise_cachedUpTo i w).imp_of_mem fun {id id'} hid _ h he => ?_
  subst he
  obtain ⟨c, hc, _⟩ := hs.mem_cachedUpTo_iff.1 hid
  rcases h c c hc hc with hlt | ⟨_, hlt⟩ <;> exact lt_irrefl _ hlt

theorem mem_widths (hs : s.Coherent) : ∀ w ∈ s.combinations.toList.map Combination.width, 1 ≤ w ∧ w ≤ s.joinNum := by
  intro w hw
  obtain ⟨c, hc, rfl⟩ := List.mem_map.1 hw
  obtain ⟨id, hid⟩ := List.mem_iff_getElem?.1 hc
  exact hs.width_bounds (by rwa [Array.getElem?_toList] at hid)

/-- **The histogram counts every stored combination once**, at the place of its width. -/
theorem widthHistogram_spec (hs : s.Coherent) : s.widthHistogram.length = s.joinNum ∧
    (∀ w, 1 ≤ w → w ≤ s.joinNum →
      s.widthHistogram[w - 1]? = some (s.combinations.countP fun c => c.width == w)) ∧
    s.widthHistogram.sum = s.size := by
  have hplaces : (List.replicate s.joinNum 0).length = s.joinNum := List.length_replicate
  obtain ⟨hlength, hcount, hsum⟩ := foldl_countWidth (hplaces.symm ▸ hs.mem_widths)
  rw [← widthHistogram_eq] at hlength hcount hsum
  refine ⟨hlength.trans hplaces, fun w hpos hle => ?_, ?_⟩
  · rw [hcount, List.getElem?_replicate, if_pos (by omega), Nat.sub_add_cancel hpos, Option.map_some, Nat.zero_add,
      List.count, List.countP_map, ← Array.countP_toList]
    rfl
  · rw [hsum]
    simp [size]

/-- **A coherent store keeps its promises.** -/
theorem indexed (hs : s.Coherent) : s.Indexed where
  width := hs.width_bounds
  members_inj hc hd h := hs.at_inj ⟨_, hc, h⟩ ⟨_, hd, rfl⟩
  fingerprint_inj hc hd h := by
    rw [hs.fingerprint_eq hc, hs.fingerprint_eq hd] at h
    exact hs.eq_of_fingerprint_eq ⟨_, hc, rfl⟩ ⟨_, hd, rfl⟩ h
  lookup := hs.lookup_iff
  mem_cached := hs.mem_cached_iff
  cached_ascending := Store.cached_ascending s
  cached_outside := hs.cached_eq_nil
  mem_cachedUpTo := hs.mem_cachedUpTo_iff
  cachedUpTo_ascending := hs.pairwise_cachedUpTo
  cachedUpTo_nodup := hs.nodup_cachedUpTo
  histogram_range hc := by
    have hwidth := hs.width_bounds hc
    rw [hs.widthHistogram_spec.1]
    omega
  histogram_length := hs.widthHistogram_spec.1
  histogram_count := hs.widthHistogram_spec.2.1 _
  histogram_sum := hs.widthHistogram_spec.2.2

end Coherent

/-! ## Answers -/

/-- What the answer of a successful insertion of `c` into `s` says about the store `t` after it. -/
structure Answered (s t : Store) (c : Combination) (id : Nat) (new : Bool) : Prop where
  get : ∀ phase, ∃ d, t.get phase id = .ok d ∧ d.members = c.members
  new_iff : new = true ↔ ¬ s.Holds c.members
  /-- New combinations get the positions one after the other. -/
  next : new = true → id = s.size

theorem At.exists_get (h : s.At id c.members) (phase : Phase) :
    ∃ d, s.get phase id = .ok d ∧ d.members = c.members := by
  obtain ⟨d, hd, hmembers⟩ := h
  exact ⟨d, get_eq_ok_iff.2 hd, hmembers⟩

namespace Coherent

/-- **A successful insertion tells the truth.** -/
theorem answered (hs : s.Coherent) (hc : c.BelongsTo s.tableNum) {new : Bool}
    (h : s.insert phase c = (t, .ok (id, new))) : Answered s t c id new := by
  rcases hs.insert_step phase hc with ⟨_, hat, hins⟩ | ⟨hno, _, hpush, _, hins⟩ | ⟨_, _, hins⟩ <;> rw [hins] at h <;>
    cases h
  · exact ⟨hat.exists_get, by simpa using ⟨_, hat⟩, by simp⟩
  · have hat : t.At s.size c.members := hpush.at_iff.2 (.inr ⟨rfl, rfl⟩)
    exact ⟨hat.exists_get, by simpa using hno, fun _ => rfl⟩

/-- What is stored is found again. -/
theorem insert_of_at (hs : s.Coherent) (hc : c.BelongsTo s.tableNum) (hat : s.At id c.members) :
    s.insert phase c = (s, .ok (id, false)) := by
  obtain ⟨hpos, hle⟩ := hs.width hat
  rcases hs.insert_cases phase hc.fingerprint_eq hc.inside hpos hle with
    ⟨id', hat', hins⟩ | ⟨hno, _⟩ | ⟨id', m, hm, hne, hf, _⟩
  · rwa [hs.at_inj hat hat']
  · exact absurd ⟨id, hat⟩ hno
  · have hsame : id' = id := hs.eq_of_fingerprint_eq hm hat hf
    exact absurd ((hsame ▸ hm).unique hat) hne

/-- **An insertion that fails was to be refused**, and changes nothing. -/
theorem refused (hs : s.Coherent) (hc : c.BelongsTo s.tableNum) {e : PlanError}
    (h : s.insert phase c = (t, .error e)) : s.Refuses c ∧ t = s := by
  rcases hs.insert_step phase hc with ⟨_, _, hins⟩ | ⟨_, _, _, _, hins⟩ | ⟨hrefuses, _, hins⟩ <;> rw [hins] at h <;>
    cases h
  exact ⟨hrefuses, rfl⟩

end Coherent

/-- **Every store that insertions lead to keeps its promises**, whichever of them were refused. What further insertions
answer is true of it, those that fail had to be refused and leave it as it is, and a position keeps its combination ever
after. -/
theorem insertAll_indexed (hcalls : ∀ call ∈ calls, call.2.BelongsTo n) (hs : (empty n k).insertAll calls = s) :
    (s.tableNum = n ∧ s.joinNum = k) ∧ s.Indexed ∧
    (∀ phase c t id new, c.BelongsTo n → s.insert phase c = (t, .ok (id, new)) → Answered s t c id new) ∧
    (∀ phase c t e, c.BelongsTo n → s.insert phase c = (t, .error e) → s.Refuses c ∧ t = s) ∧
    ∀ more, (∀ call ∈ more, call.2.BelongsTo n) → ∀ phase id c, s.get phase id = .ok c →
      (s.insertAll more).get phase id = .ok c := by
  obtain ⟨hcoh, hext⟩ := (coherent_empty n k).insertAll hcalls
  rw [hs] at hcoh hext
  have hn : s.tableNum = n := hext.tableNum
  subst hn
  refine ⟨⟨rfl, hext.joinNum⟩, hcoh.indexed, fun phase c t id new hc h => hcoh.answered hc h,
    fun phase c t e hc h => hcoh.refused hc h, fun more hmore phase id c h => ?_⟩
  obtain ⟨_, hlater⟩ := hcoh.insertAll hmore
  exact get_eq_ok_iff.2 (hlater.getElem?_mono (get_eq_ok_iff.1 h))

/-- Two tables of three, next to the third. -/
def pair : Combination := .ofParts ⟨[0, 1], by decide⟩ ⟨[2], by decide⟩

theorem pair_belongsTo : pair.BelongsTo 3 where
  inside := by
    show ∀ i ∈ [0, 1], i < 3
    decide
  memo f h := by cases h

theorem pair_insert : ∃ s, (empty 3 2).insertAll [(.growth, pair)] = s ∧ s.Coherent ∧ s.tableNum = 3 ∧
    s.At 0 pair.members := by
  rcases (coherent_empty 3 2).insert_cases .growth pair_belongsTo.fingerprint_eq pair_belongsTo.inside (by decide)
    (by decide) with ⟨id, hat, _⟩ | ⟨_, s, hpush, hs, hins⟩ | ⟨id, m, hat, _⟩
  · exact absurd hat.lt_size (Nat.not_lt_zero id)
  · have hrun : (empty 3 2).insertAll [(.growth, pair)] = s := by
      rw [insertAll, List.foldl_cons, hins, List.foldl_nil]
    exact ⟨s, hrun, hs, hpush.tableNum, hpush.at_iff.2 (.inr ⟨rfl, rfl⟩)⟩
  · exact absurd hat.lt_size (Nat.not_lt_zero id)

/-- A pair that is inserted again keeps its position. -/
theorem pair_insertedAgain : (∀ call ∈ [(Phase.growth, pair)], call.2.BelongsTo 3) ∧
    ∃ s, (empty 3 2).insertAll [(.growth, pair)] = s ∧ s.Indexed ∧
      s.insert .combinationMerge pair = (s, .ok (0, false)) ∧ Answered s s pair 0 false := by
  have hcalls : ∀ call ∈ [(Phase.growth, pair)], call.2.BelongsTo 3 := by
    simpa using pair_belongsTo
  obtain ⟨s, hs, hcoh, hn, hat⟩ := pair_insert
  have hagain : s.insert .combinationMerge pair = (s, .ok (0, false)) :=
    hcoh.insert_of_at (hn.symm ▸ pair_belongsTo) hat
  obtain ⟨_, hindexed, hanswered, _⟩ := insertAll_indexed hcalls hs
  exact ⟨hcalls, s, hs, hindexed, hagain, hanswered _ _ _ _ _ pair_belongsTo hagain⟩

end Store
end JoinShapes
