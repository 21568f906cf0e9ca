import GrooveIp.Resolver.Runs

/-!
# Resolutions that lose no server

The callback of a resolution that is not cancelled gets the addresses of every server of the answer
with the smallest ttl exactly when no server that is alone with its priority is left out, and no
ttl of an address that is not read is smaller than those that are.
-/

namespace GrooveIp.Resolver

open List Env

variable {A : Type}

/-- The priority of a record of the answer. -/
def Env.priority (env : Env A) (index : ℕ) : ℕ := (env.srv[index]?.map (·.priority)).getD 0

/-- The addresses of the servers in an order, or those of the domain when there is no server. -/
def Env.addressesOf (env : Env A) (order : List ℕ) : List A :=
  if env.srv.isEmpty then env.addresses .domain
  else order.flatMap fun index => env.addresses (.target index)

/-- The ttls of the records that are used. -/
def Env.usedTtls (env : Env A) : List ℕ :=
  if env.srv.isEmpty then (env.used .domain).map (·.ttl)
  else env.srv.map (·.ttl) ++ (List.range env.srv.length).flatMap fun index =>
    (env.used (.target index)).map (·.ttl)

/-- The resolution asks no more. -/
def CombinedContext.Complete (ctx : CombinedContext A) : Prop := ∀ q, ctx.pending q = false

/-- The callback is called once at most and not after a cancellation; when nothing is asked any
more, it was called with the addresses of every server, grouped by server in an order of
non-decreasing priority that is the same whatever was answered when, and with the smallest ttl. -/
structure LosesNoServer (env : Env A) : Prop where
  once : ∀ schedule, (resolve env schedule).callbacks.length ≤ 1
  silent : ∀ sync before after, (resolve env ⟨sync, before ++ .cancel :: after⟩).callbacks =
    (resolve env ⟨sync, before⟩).callbacks
  delivered : ∃ order : List ℕ, order.Perm (List.range env.srv.length) ∧
    (order.Pairwise fun i j => env.priority i ≤ env.priority j) ∧
    ∀ schedule, Event.cancel ∉ schedule.events → (resolve env schedule).Complete →
      (resolve env schedule).callbacks = [⟨env.addressesOf order, smallestTtl env.usedTtls⟩]

/-- No server with an address is alone with its priority while others share theirs, and the ttls of
addresses are not smaller than what is read: with SRV records and both kinds of addresses, the ttls
of the SRV records; without SRV records, nothing. -/
structure NothingUnread (env : Env A) : Prop where
  alone : (∃ srv ∈ env.srvList, sharedIn env.srvList srv = true) →
    ∀ srv ∈ env.srvList, sharedIn env.srvList srv = false → env.addresses (.target srv.index) = []
  ttl : env.srv ≠ [] → env.family ≠ .inet → ∀ index < env.srv.length,
    ∀ rr ∈ env.used (.target index), smallestTtl (env.srv.map (·.ttl)) ≤ rr.ttl
  domain : env.srv = [] → ∀ rr ∈ env.used .domain, uint32Max ≤ rr.ttl

/-! ### Runs -/

variable {ctx : CombinedContext A}

theorem phase_foldl {env : Env A} {sync : Question → Bool} {events : List Event}
    (h : Phase env ctx) (hc : Event.cancel ∉ events) :
    Phase env (events.foldl (fun ctx e => ctx.step env sync e) ctx) := by
  induction events generalizing ctx with
  | nil => exact h
  | cons e events ih =>
    rw [mem_cons, not_or] at hc
    cases e with
    | cancel => exact absurd rfl hc.1
    | answered question => exact ih (h.answered sync question) hc.2

theorem phase_stackResolve (env : Env A) (sync : Question → Bool) :
    Phase env (stackResolve env sync) := by
  unfold stackResolve
  split
  · exact phase_srvAnswered env sync
  · exact .asking

theorem Over.foldl (h : Over ctx) (env : Env A) (sync : Question → Bool)
    (events : List Event) : events.foldl (fun ctx e => ctx.step env sync e) ctx = ctx := by
  induction events with
  | nil => rfl
  | cons e events ih => rw [foldl_cons, h.step, ih]

theorem phase_or_over {env : Env A} {sync : Question → Bool} (events : List Event)
    (h : Phase env ctx) : Phase env (events.foldl (fun ctx e => ctx.step env sync e) ctx) ∨
      Over (events.foldl (fun ctx e => ctx.step env sync e) ctx) ∧
        (events.foldl (fun ctx e => ctx.step env sync e) ctx).callbacks.length ≤ 1 := by
  induction events generalizing ctx with
  | nil => exact Or.inl h
  | cons e events ih =>
    cases e with
    | answered question => exact ih (h.answered sync question)
    | cancel =>
      obtain ⟨hover, hcalls⟩ := h.cancel
      rw [foldl_cons, show ctx.step env sync .cancel = ctx.cancel from rfl, hover.foldl]
      exact Or.inr ⟨hover, hcalls ▸ h.callbacks_le⟩

theorem resolve_once (env : Env A) (schedule : Schedule) :
    (resolve env schedule).callbacks.length ≤ 1 := by
  rcases phase_or_over schedule.events (phase_stackResolve env schedule.sync) with h | ⟨-, h⟩
  · exact h.callbacks_le
  · exact h

theorem resolve_silent (env : Env A) (sync : Question → Bool) (before after : List Event) :
    (resolve env ⟨sync, before ++ .cancel :: after⟩).callbacks =
      (resolve env ⟨sync, before⟩).callbacks := by
  simp only [resolve, foldl_append, foldl_cons]
  generalize hctx : before.foldl (fun ctx e => ctx.step env sync e) (stackResolve env sync) = ctx
  rw [show ctx.step env sync .cancel = ctx.cancel from rfl]
  rcases phase_or_over before (phase_stackResolve env sync) with h | ⟨h, -⟩
  · obtain ⟨hover, hcalls⟩ := (hctx ▸ h).cancel
    rw [hover.foldl]
    exact hcalls
  · have hover : Over ctx := hctx ▸ h
    have hcancel : ctx.cancel = ctx := hover.step env sync .cancel
    rw [hcancel, hover.foldl]

theorem resolve_complete (env : Env A) (schedule : Schedule) (hc : Event.cancel ∉ schedule.events)
    (h : (resolve env schedule).Complete) : (resolve env schedule).callbacks = [env.final] :=
  (phase_foldl (phase_stackResolve env schedule.sync) hc).complete h

theorem exists_complete (env : Env A) :
    ∃ schedule : Schedule, Event.cancel ∉ schedule.events ∧ (resolve env schedule).Complete := by
  refine ⟨⟨fun _ => true, []⟩, by simp, ?_⟩
  have hf := srvAnswered_sync env
  intro q
  show (({} : CombinedContext A).srvAnswered env fun _ => true).pending q = false
  cases q with
  | srv => exact hf.srvPending
  | addresses host v6 =>
    cases host with
    | target index => simp [CombinedContext.pending, CombinedContext.stateOf, hf.srvResults]
    | domain => simp [CombinedContext.pending, hf.fallback]

/-! ### The servers of the answer -/

section Servers

variable {env : Env A}

theorem srvMinTtl_eq (env : Env A) : env.srvMinTtl = smallestTtl (env.srv.map (·.ttl)) := by
  have key (l : List SrvRecord) (b : Base) : (l.foldl (fun b rr => b.lowerTtl rr.ttl) b).minTtl =
        (l.map (·.ttl)).foldl (fun m t => min t m) b.minTtl := by
    induction l generalizing b with
    | nil => rfl
    | cons rr l ih => rw [foldl_cons, ih, map_cons, foldl_cons]; rfl
  rw [← foldl_min_eq_smallestTtl]
  exact key env.srv {}

theorem srvList_length (env : Env A) : env.srvList.length = env.srv.length := by
  simpa using env.srvList_perm.length_eq

theorem selected_eq_nil_iff (env : Env A) : env.selected = [] ↔ env.srv = [] := by
  obtain ⟨-, hperm⟩ := srvSelectByWeight_spec env.random env.srvList_sorted
  have hlist : env.srvList = [] ↔ env.srv = [] := by
    rw [← List.length_eq_zero_iff, srvList_length, List.length_eq_zero_iff]
  rw [← hlist, ← List.length_eq_zero_iff, show env.selected.length = _ from hperm.length_eq,
    List.length_eq_zero_iff]
  split
  · exact Iff.rfl
  · next hne =>
    refine ⟨fun h => absurd h hne, fun h => ?_⟩
    rw [h]
    rfl

theorem priority_index {srv : Srv} (h : srv ∈ env.srvList) :
    env.priority srv.index = srv.priority := by
  obtain ⟨⟨rr, i⟩, hmem, rfl⟩ := mem_map.mp (env.srvList_perm.mem_iff.mp h)
  have hget := mem_zipIdx_iff_getElem?.mp hmem
  simp [priority, hget]

theorem index_lt {srv : Srv} (h : srv ∈ env.srvList) : srv.index < env.srv.length :=
  mem_range.mp (env.srvList_index.mem_iff.mp (List.mem_map_of_mem h))

theorem exists_server {index : ℕ} (h : index < env.srv.length) :
    ∃ srv ∈ env.srvList, srv.index = index := by
  obtain ⟨srv, hsrv, heq⟩ := mem_map.mp (env.srvList_index.mem_iff.mpr (mem_range.mpr h))
  exact ⟨srv, hsrv, heq⟩

theorem used_eq_nil {host : Host} (h : env.addresses host = []) : env.used host = [] := by
  unfold addresses at h
  cases hlit : env.literalOf host with
  | none => simpa [hlit] using h
  | some l => simp [used, hlit]

/-- The servers that are alone with their priorities while others share theirs. -/
def Env.lost (env : Env A) : List Srv :=
  if env.srvList.filter (sharedIn env.srvList) = [] then []
  else env.srvList.filter fun srv => !sharedIn env.srvList srv

theorem lost_append_selected_perm (env : Env A) : (env.lost ++ env.selected).Perm env.srvList := by
  obtain ⟨-, hperm⟩ := srvSelectByWeight_spec env.random env.srvList_sorted
  refine (hperm.append_left env.lost).trans ?_
  unfold lost
  split
  · exact List.Perm.refl _
  · exact perm_append_comm.trans (filter_append_perm _ _)

theorem insert_lost {f : Srv → List A} (lost l : List Srv) (h : ∀ srv ∈ lost, f srv = [])
    (hsorted : l.Pairwise PrioLe) : ∃ all : List Srv, all.Perm (lost ++ l) ∧ all.Pairwise PrioLe ∧
      all.flatMap f = l.flatMap f := by
  induction lost with
  | nil => exact ⟨l, List.Perm.refl _, hsorted, rfl⟩
  | cons srv lost ih =>
    obtain ⟨all, hperm, hall, hflat⟩ := ih fun s hs => h s (mem_cons_of_mem srv hs)
    refine ⟨all.orderedInsert PrioLe srv, ?_, hall.orderedInsert srv all, ?_⟩
    · exact (perm_orderedInsert PrioLe srv all).trans (hperm.cons srv)
    · rw [← hflat]
      have hsrv := h srv (mem_cons_self ..)
      clear hperm hall hflat
      induction all with
      | nil => simp [hsrv]
      | cons a all ih =>
        rw [orderedInsert_cons]
        split
        · simp [hsrv]
        · rw [flatMap_cons, ih, flatMap_cons]

theorem smallestTtl_usedTtls (h : NothingUnread env) (hsrv : env.srv ≠ []) :
    smallestTtl env.usedTtls = env.finalTtl := by
  have hlost : ∀ srv ∈ env.lost, env.used (.target srv.index) = [] := by
    intro srv hmem
    unfold lost at hmem
    split at hmem
    · cases hmem
    · next hne =>
      obtain ⟨shared, hshared⟩ := exists_mem_of_ne_nil _ hne
      rw [mem_filter] at hshared hmem
      exact used_eq_nil (h.alone ⟨shared, hshared.1, hshared.2⟩ srv hmem.1 (by simpa using hmem.2))
  refine eq_finalTtl env fun x => ?_
  have hempty : env.srv.isEmpty = false := by simpa using hsrv
  simp only [usedTtls, hempty, Bool.false_eq_true, if_false, le_smallestTtl, mem_append,
    srvMinTtl_eq, or_imp, forall_and, and_assoc]
  refine and_congr_right fun hmax => and_congr_right fun htsrv => ?_
  constructor
  · intro hall srv hmem
    unfold reportedTtl
    split
    · rw [le_smallestTtl]
      refine ⟨hmax, fun t ht => hall t ?_⟩
      rw [mem_flatMap]
      exact ⟨srv.index, mem_range.mpr (index_lt (env.selected_subperm.subset hmem)), ht⟩
    · exact hmax
  · intro hall t ht
    obtain ⟨index, hindex, ht⟩ := mem_flatMap.mp ht
    obtain ⟨rr, hrr, rfl⟩ := mem_map.mp ht
    have hlt := mem_range.mp hindex
    by_cases hfam : env.family = .inet
    · obtain ⟨srv, hmem, rfl⟩ := exists_server hlt
      rcases mem_append.mp ((lost_append_selected_perm env).mem_iff.mpr hmem) with hl | hs
      · rw [hlost srv hl] at hrr
        cases hrr
      · have := hall srv hs
        rw [reportedTtl, if_pos hfam, le_smallestTtl] at this
        exact this.2 _ (List.mem_map_of_mem hrr)
    · exact Nat.le_trans (le_smallestTtl.mpr ⟨hmax, htsrv⟩) (h.ttl hsrv hfam index hlt rr hrr)

theorem smallestTtl_domain (h : NothingUnread env) (hsrv : env.srv = []) :
    smallestTtl env.usedTtls = env.srvMinTtl := by
  have hmin : env.srvMinTtl = uint32Max := by
    rw [srvMinTtl_eq, hsrv]
    rfl
  rw [hmin]
  refine Nat.le_antisymm (le_smallestTtl.mp (Nat.le_refl _)).1 (le_smallestTtl.mpr ⟨Nat.le_refl _,
    ?_⟩)
  simp only [usedTtls, hsrv, isEmpty_nil, if_true, forall_mem_map]
  exact h.domain hsrv

theorem final_of_nothingUnread (h : NothingUnread env) :
    ∃ order : List ℕ, order.Perm (List.range env.srv.length) ∧
      (order.Pairwise fun i j => env.priority i ≤ env.priority j) ∧
      env.final = ⟨env.addressesOf order, smallestTtl env.usedTtls⟩ := by
  by_cases hsrv : env.srv = []
  · refine ⟨[], by simp [hsrv], List.Pairwise.nil, ?_⟩
    have hsel := (selected_eq_nil_iff env).mpr hsrv
    simp [final, hsel, addressesOf, hsrv, smallestTtl_domain h hsrv]
  · have hsel : env.selected ≠ [] := fun hnil => hsrv ((selected_eq_nil_iff env).mp hnil)
    have hlost : ∀ srv ∈ env.lost, env.addresses (.target srv.index) = [] := by
      intro srv hmem
      unfold lost at hmem
      split at hmem
      · cases hmem
      · next hne =>
        obtain ⟨shared, hshared⟩ := exists_mem_of_ne_nil _ hne
        rw [mem_filter] at hshared hmem
        exact h.alone ⟨shared, hshared.1, hshared.2⟩ srv hmem.1 (by simpa using hmem.2)
    obtain ⟨hsorted, -⟩ := srvSelectByWeight_spec env.random env.srvList_sorted
    obtain ⟨all, hperm, hall, hflat⟩ := insert_lost env.lost env.selected hlost hsorted
    have hlist : all.Perm env.srvList := hperm.trans (lost_append_selected_perm env)
    refine ⟨all.map (·.index), (hlist.map _).trans env.srvList_index, ?_, ?_⟩
    · rw [pairwise_map]
      refine hall.imp_of_mem fun ha hb hle => ?_
      rw [priority_index (hlist.mem_iff.mp ha), priority_index (hlist.mem_iff.mp hb)]
      exact hle
    · rw [smallestTtl_usedTtls h hsrv, final, if_neg (by simpa using hsel), addressesOf,
        if_neg (by simpa using hsrv), flatMap_map, hflat]

/-! ### Conversely -/

theorem lost_addresses {order : List ℕ} (hperm : order.Perm (List.range env.srv.length))
    (h : (order.flatMap fun index => env.addresses (.target index)) =
      env.selected.flatMap fun srv => env.addresses (.target srv.index)) :
    ∀ srv ∈ env.lost, env.addresses (.target srv.index) = [] := by
  have hall : (order.map fun index => (env.addresses (.target index)).length).Perm
      ((env.lost ++ env.selected).map fun srv => (env.addresses (.target srv.index)).length) := by
    have hindex : ((env.lost ++ env.selected).map (·.index)).Perm order :=
      (((lost_append_selected_perm env).map _).trans env.srvList_index).trans hperm.symm
    have := (hindex.symm.map fun index => (env.addresses (.target index)).length)
    rwa [map_map] at this
  have hlength := congrArg List.length h
  rw [length_flatMap, length_flatMap, hall.sum_nat, map_append, sum_append] at hlength
  have hzero : (env.lost.map fun srv => (env.addresses (.target srv.index)).length).sum = 0 := by
    omega
  intro srv hmem
  have := List.sum_eq_zero_iff_forall_eq_nat.mp hzero _ (List.mem_map_of_mem hmem)
  exact List.length_eq_zero_iff.mp this

theorem nothingUnread_of_final {order : List ℕ} (hperm : order.Perm (List.range env.srv.length))
    (h : env.final = ⟨env.addressesOf order, smallestTtl env.usedTtls⟩) : NothingUnread env := by
  have hselected (hsrv : env.srv ≠ []) : env.selected.isEmpty = false := by
    simpa using fun hnil => hsrv ((selected_eq_nil_iff env).mp hnil)
  have httl (hsrv : env.srv ≠ []) : env.finalTtl = smallestTtl env.usedTtls := by
    rw [final, hselected hsrv] at h
    exact congrArg Notification.ttl h
  exact
    { alone := by
        rintro ⟨shared, hmem, hshared⟩ srv hsrv halone
        have hne : env.srv ≠ [] := by
          intro hnil
          have := index_lt hmem
          simp [hnil] at this
        rw [final, hselected hne] at h
        have haddr : (env.selected.flatMap fun srv => env.addresses (.target srv.index)) =
            env.addressesOf order := congrArg Notification.addresses h
        rw [addressesOf, if_neg (by simp [hne])] at haddr
        refine lost_addresses hperm haddr.symm srv ?_
        have hfilter : env.srvList.filter (sharedIn env.srvList) ≠ [] :=
          ne_nil_of_mem (mem_filter.mpr ⟨hmem, hshared⟩)
        rw [lost, if_neg hfilter]
        exact mem_filter.mpr ⟨hsrv, by simp [halone]⟩
      ttl := by
        intro hsrv hfam index hindex rr hrr
        have hfinal : env.srvMinTtl ≤ env.finalTtl := by
          rw [finalTtl, le_foldr_min]
          refine ⟨Nat.le_refl _, ?_⟩
          simp only [forall_mem_map, reportedTtl, hfam, if_false]
          intro srv _
          rw [srvMinTtl_eq]
          exact (le_smallestTtl.mp (Nat.le_refl _)).1
        rw [← srvMinTtl_eq]
        refine Nat.le_trans hfinal (httl hsrv ▸ ?_)
        refine (le_smallestTtl.mp (Nat.le_refl _)).2 _ ?_
        rw [usedTtls, if_neg (by simpa using hsrv), mem_append]
        exact Or.inr (mem_flatMap.mpr
          ⟨index, mem_range.mpr hindex, List.mem_map_of_mem hrr⟩)
      domain := by
        intro hsrv rr hrr
        have hsel := (selected_eq_nil_iff env).mpr hsrv
        rw [final, hsel] at h
        have hmin : env.srvMinTtl = smallestTtl env.usedTtls := congrArg Notification.ttl h
        have hmax : env.srvMinTtl = uint32Max := by
          rw [srvMinTtl_eq, hsrv]
          rfl
        rw [← hmax, hmin]
        refine (le_smallestTtl.mp (Nat.le_refl _)).2 _ ?_
        rw [usedTtls, if_pos (by simp [hsrv])]
        exact List.mem_map_of_mem hrr }

end Servers

theorem LosesNoServer.nothingUnread {env : Env A} (h : LosesNoServer env) : NothingUnread env := by
  obtain ⟨order, hperm, -, hall⟩ := h.delivered
  obtain ⟨schedule, hc, hcomplete⟩ := exists_complete env
  have heq := (hall schedule hc hcomplete).symm.trans (resolve_complete env schedule hc hcomplete)
  exact nothingUnread_of_final hperm (singleton_inj.mp heq).symm

/-- A resolution loses no server exactly when no server with an address is alone with its priority
while others share theirs, and no ttl that is not read is smaller than those that are. -/
theorem losesNoServer_iff (env : Env A) : LosesNoServer env ↔ NothingUnread env := by
  constructor
  · exact LosesNoServer.nothingUnread
  · intro h
    obtain ⟨order, hperm, hsorted, hfinal⟩ := final_of_nothingUnread h
    exact
      { once := resolve_once env
        silent := resolve_silent env
        delivered := ⟨order, hperm, hsorted, fun schedule hc hcomplete =>
          hfinal ▸ resolve_complete env schedule hc hcomplete⟩ }

/-- Three servers of which two share a priority, and whose targets have one address each. -/
def sampleEnv : Env ℕ where
  family := .inet
  srv := [⟨1, 0, 60⟩, ⟨2, 1, 60⟩, ⟨2, 1, 60⟩]
  random := fun _ => 0
  literal := fun _ => none
  records
    | .target index, _ => [⟨index, 60⟩]
    | .domain, _ => []

/-- The first server, which is alone with its priority, is lost. -/
theorem sampleEnv_losesServer : (resolve sampleEnv ⟨fun _ => true, []⟩).callbacks = [⟨[2, 1], 60⟩] ∧
      ¬ LosesNoServer sampleEnv := by
  refine ⟨by decide, fun h => ?_⟩
  have halone := h.nothingUnread.alone (by decide) ⟨0, 1, 0⟩ (by decide) (by decide)
  exact absurd halone (by decide)

end GrooveIp.Resolver
