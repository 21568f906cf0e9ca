import Mathlib.Data.List.Chain
import Mathlib.Data.List.Perm.Basic
import GrooveIp.Search.MagicSearch

/-!
# Incremental search

When the cache of a shorter filter gives the results of a fresh search. The fast path searches the
friend of each cached result once for each result, forgets what was hidden or merged, and removes
neighbours with equal addresses only; where each friend has one result and addresses are distinct none
of this matters, in whatever order the results are sorted.
-/

namespace GrooveIp.Search

open GrooveIp.Lib List

variable {settings : Settings} {core : Core}

/-! ## Merging -/

variable (a : SearchResult)

theorem merge_cons_cons (list : List SearchResult) (b : SearchResult)
    (other : List SearchResult) : merge (a :: list) (b :: other) =
      if b.weight < a.weight then b :: merge (a :: list) other
      else a :: merge list (b :: other) := by
  by_cases h : b.weight < a.weight <;> simp [merge, h]

theorem merge_nil (list : List SearchResult) : merge list [] = list := by
  induction list with
  | nil => rfl
  | cons a list ih => simp [merge, ih]

theorem merge_perm (list other : List SearchResult) : (merge list other).Perm (list ++ other) := by
  induction list generalizing other with
  | nil => exact List.Perm.refl _
  | cons a list ih =>
    have hsplit := takeWhile_append_dropWhile (p := fun b : SearchResult => b.weight < a.weight)
      (l := other)
    refine perm_middle.trans (List.Perm.cons a ?_)
    refine ((ih _).append_left _).trans ?_
    rw [← append_assoc]
    refine (perm_append_comm.append_right _).trans ?_
    rw [append_assoc, hsplit]
    exact List.Perm.refl _

theorem addResultsToResultsList_perm (results srL : List SearchResult) :
    (addResultsToResultsList results srL).Perm (srL ++ results) := by
  unfold addResultsToResultsList
  split
  · next h =>
    rw [isEmpty_iff.mp h, append_nil]
  · exact merge_perm _ _

theorem searchInFriends_perm (settings : Settings) (core : Core) (filter withDomain : Str) :
    (searchInFriends settings core filter withDomain).Perm
      (core.friends.flatMap (searchInFriend settings core · filter withDomain)) := by
  have hfold : ∀ (friends : List Friend) (resultList : List SearchResult),
      (friends.foldl (fun resultList lFriend => addResultsToResultsList
        (searchInFriend settings core lFriend filter withDomain) resultList) resultList).Perm
        (resultList ++ friends.flatMap (searchInFriend settings core · filter withDomain)) := by
    intro friends
    induction friends with
    | nil => simp
    | cons lFriend friends ih =>
      intro resultList
      rw [foldl_cons, flatMap_cons, ← append_assoc]
      exact (ih _).trans ((addResultsToResultsList_perm _ _).append_right _)
  simpa [searchInFriends] using hfold core.friends []

/-! ## Neighbours -/

/-- Addresses of results are distinct, where there are any. -/
def Distinct (core : Core) (list : List SearchResult) : Prop :=
  list.Pairwise fun sr sr' => sameItem core sr sr' = false

instance (core : Core) (list : List SearchResult) : Decidable (Distinct core list) :=
  inferInstanceAs (Decidable (list.Pairwise fun sr sr' => sameItem core sr sr' = false))

variable {sr : SearchResult}

theorem sameItem_iff {sr' : SearchResult} : sameItem core sr sr' = true ↔
      getAddressFromSearchResult core sr ≠ [] ∧
        getAddressFromSearchResult core sr = getAddressFromSearchResult core sr' := by
  simp only [sameItem, Bool.and_eq_true, Bool.or_eq_true, Bool.not_eq_true', beq_iff_eq,
    isEmpty_eq_false_iff]
  constructor
  · rintro ⟨hne | hne, heq⟩
    · exact ⟨hne, heq⟩
    · exact ⟨heq ▸ hne, heq⟩
  · rintro ⟨hne, heq⟩
    exact ⟨.inl hne, heq⟩

theorem sameItem_comm (sr sr' : SearchResult) : sameItem core sr sr' = sameItem core sr' sr := by
  rw [Bool.eq_iff_iff, sameItem_iff, sameItem_iff]
  constructor <;> rintro ⟨hne, heq⟩ <;> exact ⟨heq ▸ hne, heq.symm⟩

theorem sameItem_congr {a b : SearchResult} (h : sameItem core a b = true) (sr : SearchResult) :
    sameItem core a sr = sameItem core b sr := by
  obtain ⟨-, heq⟩ := sameItem_iff.mp h
  rw [Bool.eq_iff_iff, sameItem_iff, sameItem_iff, heq]

variable {list : List SearchResult}

theorem Distinct.perm {list' : List SearchResult} (h : Distinct core list)
    (hperm : list.Perm list') : Distinct core list' := by
  refine (hperm.pairwise_iff ?_).mp h
  intro sr sr' hne
  rwa [sameItem_comm]

theorem uniqueAfter_eq (list : List SearchResult) : uniqueAfter core a list =
      match uniqueItemsList core list with
      | [] => []
      | x :: rest => if sameItem core a x then rest else x :: rest := by
  have hcongr : ∀ {a b : SearchResult}, sameItem core a b = true →
      ∀ list, uniqueAfter core a list = uniqueAfter core b list := by
    intro a b h list
    induction list with
    | nil => rfl
    | cons sr list ih => simp only [uniqueAfter, sameItem_congr h, ih]
  cases list with
  | nil => rfl
  | cons x list =>
    simp only [uniqueItemsList, uniqueAfter]
    split
    · next h => exact hcongr h list
    · rfl

theorem uniqueItemsList_cons_congr {list' : List SearchResult}
    (h : uniqueItemsList core list = uniqueItemsList core list') :
    uniqueItemsList core (a :: list) = uniqueItemsList core (a :: list') := by
  change a :: uniqueAfter core a list = a :: uniqueAfter core a list'
  rw [uniqueAfter_eq a list, uniqueAfter_eq a list', h]

theorem Distinct.uniqueItemsList_eq (h : Distinct core list) :
    uniqueItemsList core list = list := by
  induction list with
  | nil => rfl
  | cons sr list ih =>
    obtain ⟨hfirst, hrest⟩ := pairwise_cons.mp h
    have hunique := ih hrest
    rw [uniqueItemsList, uniqueAfter_eq, hunique]
    cases list with
    | nil => rfl
    | cons x list => simp [hfirst x mem_cons_self]

/-! ## Repeated results -/

theorem uniqueItemsList_repeat {b : SearchResult} (h : sameItem core b b = true)
    (list : List SearchResult) :
    uniqueItemsList core (b :: b :: list) = uniqueItemsList core (b :: list) := by
  simp [uniqueItemsList, uniqueAfter, h]

theorem uniqueItemsList_merge_repeat {b : SearchResult} (h : sameItem core b b = true)
    (list pre post : List SearchResult) :
    uniqueItemsList core (merge list (pre ++ b :: b :: post)) =
      uniqueItemsList core (merge list (pre ++ b :: post)) := by
  induction list generalizing pre with
  | nil =>
    induction pre with
    | nil => exact uniqueItemsList_repeat h post
    | cons c pre ih => exact uniqueItemsList_cons_congr c ih
  | cons a list ihList =>
    induction pre with
    | nil =>
      simp only [nil_append]
      rw [merge_cons_cons, merge_cons_cons]
      split
      · exact uniqueItemsList_repeat h _
      · exact uniqueItemsList_cons_congr a (ihList [])
    | cons c pre ihPre =>
      simp only [cons_append]
      rw [merge_cons_cons, merge_cons_cons]
      split
      · exact uniqueItemsList_cons_congr c ihPre
      · exact uniqueItemsList_cons_congr a (ihList (c :: pre))

theorem uniqueItemsList_eq_or (core : Core) (list : List SearchResult) :
    uniqueItemsList core list = list ∨ ∃ pre b b' post, list = pre ++ b :: b' :: post ∧
      sameItem core b b' = true := by
  induction list with
  | nil => exact .inl rfl
  | cons a list ih =>
    cases list with
    | nil => exact .inl rfl
    | cons x list =>
      cases hsame : sameItem core a x with
      | true => exact .inr ⟨[], a, x, list, rfl, hsame⟩
      | false =>
        obtain heq | ⟨pre, b, b', post, hlist, hb⟩ := ih
        · left
          have hstep : uniqueItemsList core (a :: x :: list) =
              a :: uniqueItemsList core (x :: list) := by
            simp [uniqueItemsList, uniqueAfter, hsame]
          rw [hstep, heq]
        · exact .inr ⟨a :: pre, b, b', post, by rw [hlist]; rfl, hb⟩

theorem uniqueItemsList_merge {other : List SearchResult}
    (h : ∀ sr ∈ other, ∀ sr' ∈ other, sameItem core sr sr' = true → sr = sr')
    (list : List SearchResult) : uniqueItemsList core (merge list (uniqueItemsList core other)) =
      uniqueItemsList core (merge list other) := by
  induction hlen : other.length using Nat.strongRecOn generalizing other with
  | ind n ih =>
    obtain heq | ⟨pre, b, b', post, rfl, hb⟩ := uniqueItemsList_eq_or core other
    · rw [heq]
    · obtain rfl := h b (by simp) b' (by simp) hb
      have hshort : ∀ sr ∈ pre ++ b :: post, sr ∈ pre ++ b :: b :: post := by
        intro sr hsr
        simp only [mem_append, mem_cons] at hsr ⊢
        obtain hsr | hsr | hsr := hsr
        · exact .inl hsr
        · exact .inr (.inl hsr)
        · exact .inr (.inr (.inr hsr))
      have hrec := ih (pre ++ b :: post).length (by rw [← hlen]; simp)
        (fun sr hsr sr' hsr' => h sr (hshort sr hsr) sr' (hshort sr' hsr')) rfl
      have hother := uniqueItemsList_merge_repeat hb [] pre post
      change uniqueItemsList core (pre ++ b :: b :: post) = _ at hother
      rw [hother, uniqueItemsList_merge_repeat hb]
      exact hrec

theorem uniqueItemsList_sublist (list : List SearchResult) :
    (uniqueItemsList core list).Sublist list := by
  have hafter : ∀ (list : List SearchResult) (kept : SearchResult),
      (uniqueAfter core kept list).Sublist list := by
    intro list
    induction list with
    | nil => exact fun _ => List.Sublist.slnil
    | cons sr list ih =>
      intro kept
      rw [uniqueAfter]
      split
      · exact (ih kept).cons _
      · exact (ih sr).cons_cons _
  cases list with
  | nil => exact List.Sublist.slnil
  | cons sr list => exact (hafter list sr).cons_cons _

theorem exists_mem_uniqueItemsList (core : Core) (h : sr ∈ list) :
    ∃ kept ∈ uniqueItemsList core list, kept = sr ∨ sameItem core kept sr = true := by
  induction list with
  | nil => cases h
  | cons a list ih =>
    obtain rfl | hmem := mem_cons.mp h
    · exact ⟨sr, mem_cons_self, .inl rfl⟩
    · obtain ⟨kept, hkept, hsame⟩ := ih hmem
      have hlist : uniqueItemsList core (a :: list) = a :: uniqueAfter core a list := rfl
      rw [hlist, uniqueAfter_eq]
      cases hunique : uniqueItemsList core list with
      | nil =>
        rw [hunique] at hkept
        cases hkept
      | cons x rest =>
        rw [hunique] at hkept
        dsimp only
        cases hax : sameItem core a x with
        | false => exact ⟨kept, by simpa [hax] using .inr (mem_cons.mp hkept), hsame⟩
        | true =>
          obtain rfl | hrest := mem_cons.mp hkept
          · refine ⟨a, mem_cons_self, .inr ?_⟩
            obtain rfl | hsame := hsame
            · exact hax
            · rwa [sameItem_congr hax]
          · exact ⟨kept, by simp [hrest], hsame⟩

/-! ## Searches -/

section Searches

variable (settings core)

/-- The results of the friends. -/
def friendHits (filter withDomain : Str) : List SearchResult :=
  core.friends.flatMap (searchInFriend settings core · filter withDomain)

/-- The results of the call logs that are shown: those that match and whose address is none of a
friend's result. -/
def shownLogs (filter withDomain : Str) : List SearchResult :=
  getAddressFromCallLog settings core filter withDomain
    (searchInFriends settings core filter withDomain)

/-- A filter for which no friend has two results, each result can be found again from the cache, and
the addresses of results are distinct, but for call logs of one address that follow each other. -/
structure Tame (filter withDomain : Str) : Prop where
  oneHit : ∀ lFriend ∈ core.friends,
    (searchInFriend settings core lFriend filter withDomain).length ≤ 1
  located : ∀ sr ∈ friendHits settings core filter withDomain,
    sr.address.isSome ∨ sr.phoneNumber ≠ []
  repeated : ∀ sr ∈ shownLogs settings core filter withDomain,
    ∀ sr' ∈ shownLogs settings core filter withDomain, sameItem core sr sr' = true → sr = sr'
  distinct : Distinct core (friendHits settings core filter withDomain ++
    uniqueItemsList core (shownLogs settings core filter withDomain))

/-- What has a result for a filter has one for the filter before it. -/
structure Narrows (withDomain filter filter' : Str) : Prop where
  friends : ∀ lFriend ∈ core.friends, searchInFriend settings core lFriend filter' withDomain ≠ [] →
    searchInFriend settings core lFriend filter withDomain ≠ []
  logs : ∀ log ∈ core.callLogs,
    (searchInLog settings filter' withDomain (searchInFriends settings core filter' withDomain)
      log).isSome →
    (searchInLog settings filter withDomain (searchInFriends settings core filter withDomain)
      log).isSome

end Searches

section Fresh

variable {filter withDomain : Str}

theorem Tame.beginNewSearch_perm (h : Tame settings core filter withDomain) :
    (beginNewSearch settings core filter withDomain).Perm
      (friendHits settings core filter withDomain ++
        uniqueItemsList core (shownLogs settings core filter withDomain)) := by
  have hfriends := searchInFriends_perm settings core filter withDomain
  have hmerged : (merge (searchInFriends settings core filter withDomain)
      (uniqueItemsList core (shownLogs settings core filter withDomain))).Perm
      (friendHits settings core filter withDomain ++
        uniqueItemsList core (shownLogs settings core filter withDomain)) :=
    (merge_perm _ _).trans (hfriends.append_right _)
  have hdistinct := h.distinct.perm hmerged.symm
  have hbegin : beginNewSearch settings core filter withDomain =
      uniqueItemsList core (merge (searchInFriends settings core filter withDomain)
        (shownLogs settings core filter withDomain)) := by
    unfold beginNewSearch addResultsToResultsList
    dsimp only
    split
    · next hempty =>
      have hnil : shownLogs settings core filter withDomain = [] := isEmpty_iff.mp hempty
      rw [hnil]
      congr 1
      exact ((merge_nil _).symm)
    · rfl
  rw [hbegin, ← uniqueItemsList_merge h.repeated, hdistinct.uniqueItemsList_eq]
  exact hmerged

end Fresh

/-- What is searched again for a cached result. -/
def searchAgain (settings : Settings) (core : Core) (filter withDomain : Str) (sr : SearchResult) :
    List SearchResult :=
  continueWith settings core filter withDomain [] sr

theorem continueWith_perm (filter withDomain : Str) (resultList : List SearchResult)
    (sr : SearchResult) : (continueWith settings core filter withDomain resultList sr).Perm
      (resultList ++ searchAgain settings core filter withDomain sr) := by
  unfold searchAgain continueWith
  split
  · cases sr.lFriend with
    | some lFriend =>
      refine (addResultsToResultsList_perm _ _).trans (List.Perm.append_left _ ?_)
      exact (addResultsToResultsList_perm _ []).symm
    | none =>
      dsimp only
      split
      · exact List.Perm.refl _
      · simp
  · simp

theorem foldl_continueWith_perm (filter withDomain : Str) (cacheList resultList : List SearchResult) :
    (cacheList.foldl (continueWith settings core filter withDomain) resultList).Perm
      (resultList ++ cacheList.flatMap (searchAgain settings core filter withDomain)) := by
  induction cacheList generalizing resultList with
  | nil => simp
  | cons sr cacheList ih =>
    rw [foldl_cons, flatMap_cons, ← append_assoc]
    exact (ih _).trans ((continueWith_perm filter withDomain resultList sr).append_right _)

theorem searchInFriend_spec {lFriend : Friend} {filter withDomain : Str}
    (h : sr ∈ searchInFriend settings core lFriend filter withDomain) :
    sr.lFriend = some lFriend ∧ sr.address = lFriend.address := by
  obtain ⟨phone, -, hphone⟩ := mem_filterMap.mp h
  unfold searchInNumber at hphone
  dsimp only at hphone
  split at hphone
  · split at hphone
    · cases hphone
      exact ⟨rfl, rfl⟩
    · cases hphone
  · cases hphone

theorem searchInLog_eq_some_iff {filter withDomain : Str} {log : CallLog} :
    searchInLog settings filter withDomain list log = some sr ↔ ∃ addr, log.address = some addr ∧
        settings.minWeight < searchInAddress settings (some addr) filter withDomain ∧
        findAddress list addr = false ∧
        sr = { weight := searchInAddress settings (some addr) filter withDomain
               address := some addr, phoneNumber := [], lFriend := none } := by
  unfold searchInLog
  cases log.address with
  | none => simp
  | some addr =>
    by_cases hweight : settings.minWeight < searchInAddress settings (some addr) filter withDomain
    · cases hfound : findAddress list addr with
      | true => simp [hweight, hfound]
      | false =>
        simp only [hweight, if_true, hfound, Bool.false_eq_true, if_false, Option.some.injEq,
          true_and, exists_eq_left']
        exact eq_comm
    · simp [hweight]

section Step

variable {withDomain filter filter' : Str}

theorem friendHits_searchAgain (h : Tame settings core filter withDomain)
    (hnarrow : Narrows settings core withDomain filter filter') :
    (friendHits settings core filter withDomain).flatMap
      (searchAgain settings core filter' withDomain) =
        friendHits settings core filter' withDomain := by
  have hone : ∀ lFriend ∈ core.friends,
      (searchInFriend settings core lFriend filter withDomain).flatMap
        (searchAgain settings core filter' withDomain) =
          searchInFriend settings core lFriend filter' withDomain := by
    intro lFriend hmem
    have hlength := h.oneHit lFriend hmem
    match hhits : searchInFriend settings core lFriend filter withDomain with
    | [] =>
      have hnone := mt (hnarrow.friends lFriend hmem) (by simp [hhits])
      simpa using hnone
    | [sr] =>
      have hsr : sr ∈ searchInFriend settings core lFriend filter withDomain := by simp [hhits]
      have hlocated := h.located sr (mem_flatMap.mpr ⟨lFriend, hmem, hsr⟩)
      have hcond : (sr.address.isSome || !sr.phoneNumber.isEmpty) = true := by
        simpa using hlocated
      simp [searchAgain, continueWith, hcond, (searchInFriend_spec hsr).1,
        addResultsToResultsList, merge]
    | _ :: _ :: _ =>
      rw [hhits] at hlength
      simp at hlength
  unfold friendHits
  rw [flatMap_assoc]
  exact flatMap_congr hone

theorem findAddress_searchInFriends_iff {addr : Address} :
    findAddress (searchInFriends settings core filter withDomain) addr = true ↔
      ∃ lFriend ∈ core.friends, searchInFriend settings core lFriend filter withDomain ≠ [] ∧
        ∃ address, lFriend.address = some address ∧ address.uri = addr.uri := by
  have hmem : ∀ sr, sr ∈ searchInFriends settings core filter withDomain ↔
      ∃ lFriend ∈ core.friends, sr ∈ searchInFriend settings core lFriend filter withDomain := by
    intro sr
    rw [(searchInFriends_perm settings core filter withDomain).mem_iff, mem_flatMap]
  simp only [findAddress, any_eq_true, hmem, Option.any_eq_true, beq_iff_eq]
  constructor
  · rintro ⟨sr, ⟨lFriend, hfriend, hsr⟩, address, haddress, huri⟩
    exact ⟨lFriend, hfriend, ne_nil_of_mem hsr, address,
      (searchInFriend_spec hsr).2 ▸ haddress, huri⟩
  · rintro ⟨lFriend, hfriend, hne, address, haddress, huri⟩
    obtain ⟨sr, hsr⟩ := exists_mem_of_ne_nil _ hne
    exact ⟨sr, ⟨lFriend, hfriend, hsr⟩, address, (searchInFriend_spec hsr).2.trans haddress, huri⟩

/-- The result of a call log's address. -/
def logResult (settings : Settings) (filter withDomain : Str) (addr : Address) : SearchResult where
  weight := searchInAddress settings (some addr) filter withDomain
  address := some addr
  phoneNumber := []
  lFriend := none

variable {sr : SearchResult}

theorem sameItem_of_address {sr' : SearchResult} {addr addr' : Address}
    (h : sr.address = some addr) (h' : sr'.address = some addr') :
    sameItem core sr sr' = true ↔ addr.uri = addr'.uri := by
  rw [sameItem_iff]
  simp [getAddressFromSearchResult, h, h', addr.uri_ne]

theorem mem_shownLogs : sr ∈ shownLogs settings core filter withDomain ↔
      ∃ log ∈ core.callLogs, ∃ addr, log.address = some addr ∧
        settings.minWeight < searchInAddress settings (some addr) filter withDomain ∧
        findAddress (searchInFriends settings core filter withDomain) addr = false ∧
        sr = logResult settings filter withDomain addr := by
  simp only [shownLogs, getAddressFromCallLog, mem_filterMap, searchInLog_eq_some_iff]
  rfl

theorem Tame.mem_uniqueItemsList (h : Tame settings core filter withDomain) :
    sr ∈ uniqueItemsList core (shownLogs settings core filter withDomain) ↔
      sr ∈ shownLogs settings core filter withDomain := by
  constructor
  · exact fun hsr => (uniqueItemsList_sublist _).subset hsr
  · intro hsr
    obtain ⟨kept, hkept, rfl | hsame⟩ := exists_mem_uniqueItemsList core hsr
    · exact hkept
    · rwa [← h.repeated kept ((uniqueItemsList_sublist _).subset hkept) sr hsr hsame]

theorem searchAgain_logResult (addr : Address) :
    searchAgain settings core filter' withDomain (logResult settings filter withDomain addr) =
      if settings.minWeight < searchInAddress settings (some addr) filter' withDomain then
        [logResult settings filter' withDomain addr]
      else [] := by
  rfl

theorem mem_searchAgain_logs (h : Tame settings core filter withDomain)
    (hnarrow : Narrows settings core withDomain filter filter') :
    sr ∈ (uniqueItemsList core (shownLogs settings core filter withDomain)).flatMap
        (searchAgain settings core filter' withDomain) ↔
      sr ∈ shownLogs settings core filter' withDomain := by
  rw [mem_flatMap, mem_shownLogs]
  constructor
  · rintro ⟨cached, hcached, hsr⟩
    obtain ⟨log, hlog, addr, haddr, -, hshown, rfl⟩ :=
      mem_shownLogs.mp (h.mem_uniqueItemsList.mp hcached)
    rw [searchAgain_logResult] at hsr
    split at hsr
    · next hweight =>
      refine ⟨log, hlog, addr, haddr, hweight, ?_, mem_singleton.mp hsr⟩
      rw [Bool.eq_false_iff]
      intro hhidden
      obtain ⟨lFriend, hfriend, hne, haddress⟩ := findAddress_searchInFriends_iff.mp hhidden
      have hbefore : findAddress (searchInFriends settings core filter withDomain) addr = true :=
        findAddress_searchInFriends_iff.mpr
          ⟨lFriend, hfriend, hnarrow.friends lFriend hfriend hne, haddress⟩
      rw [hshown] at hbefore
      cases hbefore
    · cases hsr
  · rintro ⟨log, hlog, addr, haddr, hweight, hshown, rfl⟩
    have hnow : (searchInLog settings filter' withDomain
        (searchInFriends settings core filter' withDomain) log).isSome :=
      Option.isSome_iff_exists.mpr ⟨_, searchInLog_eq_some_iff.mpr
        ⟨addr, haddr, hweight, hshown, rfl⟩⟩
    obtain ⟨cached, hcached⟩ := Option.isSome_iff_exists.mp (hnarrow.logs log hlog hnow)
    obtain ⟨addr', haddr', hweight', hshown', rfl⟩ := searchInLog_eq_some_iff.mp hcached
    obtain rfl := Option.some_inj.mp (haddr.symm.trans haddr')
    refine ⟨logResult settings filter withDomain addr, h.mem_uniqueItemsList.mpr
      (mem_shownLogs.mpr ⟨log, hlog, addr, haddr, hweight', hshown', rfl⟩), ?_⟩
    rw [searchAgain_logResult, if_pos hweight]
    exact mem_singleton.mpr rfl

theorem shownLogs_searchAgain (h : Tame settings core filter withDomain)
    (h' : Tame settings core filter' withDomain)
    (hnarrow : Narrows settings core withDomain filter filter') :
    ((uniqueItemsList core (shownLogs settings core filter withDomain)).flatMap
      (searchAgain settings core filter' withDomain)).Perm
        (uniqueItemsList core (shownLogs settings core filter' withDomain)) := by
  have hnodup : ∀ {list : List SearchResult}, Distinct core list →
      (∀ sr ∈ list, ∃ addr, sr.address = some addr) → list.Nodup := by
    intro list hdistinct haddress
    refine hdistinct.imp_of_mem ?_
    rintro sr sr' hsr - hne rfl
    obtain ⟨addr, haddr⟩ := haddress sr hsr
    rw [(sameItem_of_address haddr haddr).mpr rfl] at hne
    cases hne
  have hfrom : ∀ {sr : SearchResult},
      sr ∈ uniqueItemsList core (shownLogs settings core filter withDomain) →
      ∃ addr, sr = logResult settings filter withDomain addr := by
    intro sr hsr
    obtain ⟨-, -, addr, -, -, -, rfl⟩ := mem_shownLogs.mp (h.mem_uniqueItemsList.mp hsr)
    exact ⟨addr, rfl⟩
  have hagain : Distinct core
      ((uniqueItemsList core (shownLogs settings core filter withDomain)).flatMap
        (searchAgain settings core filter' withDomain)) := by
    refine pairwise_flatMap.mpr ⟨?_, ?_⟩
    · intro sr hsr
      obtain ⟨addr, rfl⟩ := hfrom hsr
      rw [searchAgain_logResult]
      split <;> simp
    · refine (pairwise_append.mp h.distinct).2.1.imp_of_mem ?_
      intro sr sr' hsr hsr' hne x hx y hy
      obtain ⟨addr, rfl⟩ := hfrom hsr
      obtain ⟨addr', rfl⟩ := hfrom hsr'
      rw [searchAgain_logResult] at hx hy
      split at hx <;> split at hy <;> simp only [mem_singleton, not_mem_nil] at hx hy
      subst hx hy
      exact hne
  rw [perm_ext_iff_of_nodup]
  · intro sr
    rw [mem_searchAgain_logs h hnarrow, h'.mem_uniqueItemsList]
  · refine hnodup hagain ?_
    intro sr hsr
    obtain ⟨-, -, addr, -, -, -, rfl⟩ := mem_shownLogs.mp ((mem_searchAgain_logs h hnarrow).mp hsr)
    exact ⟨addr, rfl⟩
  · refine hnodup (pairwise_append.mp h'.distinct).2.1 ?_
    intro sr hsr
    obtain ⟨-, -, addr, -, -, -, rfl⟩ := mem_shownLogs.mp (h'.mem_uniqueItemsList.mp hsr)
    exact ⟨addr, rfl⟩

theorem continueSearch_perm (h : Tame settings core filter withDomain)
    (h' : Tame settings core filter' withDomain)
    (hnarrow : Narrows settings core withDomain filter filter') {cacheList : List SearchResult}
    (hcache : cacheList.Perm (beginNewSearch settings core filter withDomain)) :
    (continueSearch settings core cacheList filter' withDomain).Perm
      (beginNewSearch settings core filter' withDomain) := by
  have hfound : (cacheList.foldl (continueWith settings core filter' withDomain) []).Perm
      (friendHits settings core filter' withDomain ++
        uniqueItemsList core (shownLogs settings core filter' withDomain)) := by
    refine (foldl_continueWith_perm filter' withDomain cacheList []).trans ?_
    refine ((hcache.trans h.beginNewSearch_perm).flatMap_right _).trans ?_
    rw [flatMap_append, friendHits_searchAgain h hnarrow]
    exact (shownLogs_searchAgain h h' hnarrow).append_left _
  unfold continueSearch
  rw [(h'.distinct.perm hfound.symm).uniqueItemsList_eq]
  exact hfound.trans h'.beginNewSearch_perm.symm

end Step

/-! ## Chains of filters -/

/-- After a chain of filters the cache has the results of a fresh search for the last one, up to their
order: when every filter of the chain is tame and what has a result for one of them has one for the
filter before it. -/
theorem cacheAfter_perm {sort : List SearchResult → List SearchResult}
    (hsort : ∀ list, (sort list).Perm list) {filters : List Str} {withDomain : Str}
    (htame : ∀ filter ∈ filters, Tame settings core filter withDomain)
    (hnarrow : filters.IsChain (Narrows settings core withDomain)) {last : Str}
    (hlast : filters.getLast? = some last) :
    ∃ cacheList, cacheAfter settings core sort filters withDomain = some cacheList ∧
      cacheList.Perm (beginNewSearch settings core last withDomain) := by
  have hrest : ∀ (filters : List Str) (filter : Str) (cacheList : List SearchResult),
      (∀ filter' ∈ filter :: filters, Tame settings core filter' withDomain) →
      (filter :: filters).IsChain (Narrows settings core withDomain) →
      cacheList.Perm (beginNewSearch settings core filter withDomain) →
      ∃ cacheList', filters.foldl (fun cache filter =>
          (getContactListFromFilter settings core sort cache filter withDomain).2)
            (some cacheList) = some cacheList' ∧ cacheList'.Perm (beginNewSearch settings core
          ((filter :: filters).getLast (cons_ne_nil _ _)) withDomain) := by
    intro filters
    induction filters with
    | nil => exact fun filter cacheList _ _ hcache => ⟨cacheList, rfl, hcache⟩
    | cons filter' filters ih =>
      intro filter cacheList htame hchain hcache
      obtain ⟨hstep, hchain⟩ := isChain_cons_cons.mp hchain
      have hnext := continueSearch_perm (htame filter mem_cons_self)
        (htame filter' (mem_cons_of_mem _ mem_cons_self)) hstep hcache
      exact ih filter' _ (fun f hf => htame f (mem_cons_of_mem _ hf)) hchain ((hsort _).trans hnext)
  cases filters with
  | nil => cases hlast
  | cons filter filters =>
    rw [List.getLast?_eq_some_getLast (cons_ne_nil _ _), Option.some_inj] at hlast
    rw [← hlast]
    exact hrest filters filter _ htame hnarrow (hsort _)

/-- A friend with one number, and two calls from one address. -/
def oneNumber : Core where
  friends := [{ id := 0, address := none, presenceContact := none
                phoneNumbers := [{ number := ['3', '3', '1'], contact := none }] }]
  callLogs := List.replicate 2
    { incoming := true, toAddress := none
      fromAddress := some { username := some ['2', '3', '3'], displayName := none, domain := ['d']
                            uri := ['s', 'i', 'p', ':'], uri_ne := cons_ne_nil _ _ } }
  normalizePhoneNumber := none
  createAddress := fun _ => none
  proxyDomain := none

/-- `cacheAfter_perm` for two filters. -/
theorem cacheAfter_perm_oneNumber : ∃ cacheList,
    cacheAfter {} oneNumber List.reverse [['3'], ['3', '3']] [] = some cacheList ∧
      cacheList.Perm (beginNewSearch {} oneNumber ['3', '3'] []) := by
  refine cacheAfter_perm reverse_perm ?_ ?_ rfl
  · have htame : ∀ filter ∈ [['3'], ['3', '3']], Tame {} oneNumber filter [] := by
      intro filter hfilter
      simp only [mem_cons, not_mem_nil, or_false] at hfilter
      obtain rfl | rfl := hfilter <;> constructor <;> decide +kernel
    exact htame
  · refine isChain_cons_cons.mpr ⟨?_, isChain_singleton _⟩
    constructor <;> decide +kernel

/-- A friend with two numbers and no address. -/
def twoNumbers : Core where
  friends := [{ id := 0, address := none, presenceContact := none
                phoneNumbers := [{ number := ['3', '3', '1'], contact := none },
                                 { number := ['3', '3', '2'], contact := none }] }]
  callLogs := []
  normalizePhoneNumber := none
  createAddress := fun _ => none
  proxyDomain := none

/-- Both numbers are found again for each of the two cached results, however they are sorted. -/
theorem cacheAfter_twoNumbers : ¬∃ sort : List SearchResult → List SearchResult,
    (∀ list, (sort list).Perm list) ∧
      ∃ cacheList, cacheAfter {} twoNumbers sort [['3'], ['3', '3']] [] = some cacheList ∧
        cacheList.Perm (beginNewSearch {} twoNumbers ['3', '3'] []) := by
  rintro ⟨sort, hsort, cacheList, hcache, hperm⟩
  obtain rfl := Option.some_inj.mp hcache
  have hfirst := hsort (beginNewSearch {} twoNumbers ['3'] [])
  have hfound : ((sort (beginNewSearch {} twoNumbers ['3'] [])).foldl
      (continueWith {} twoNumbers ['3', '3'] []) []).Perm
      ([] ++ (beginNewSearch {} twoNumbers ['3'] []).flatMap
        (searchAgain {} twoNumbers ['3', '3'] [])) :=
    (foldl_continueWith_perm _ _ _ []).trans (hfirst.flatMap_right _)
  have hdistinct : Distinct twoNumbers ([] ++ (beginNewSearch {} twoNumbers ['3'] []).flatMap
      (searchAgain {} twoNumbers ['3', '3'] [])) := by
    decide +kernel
  have hlength := ((hsort _).symm.trans hperm).length_eq
  change (uniqueItemsList twoNumbers ((sort (beginNewSearch {} twoNumbers ['3'] [])).foldl
    (continueWith {} twoNumbers ['3', '3'] []) [])).length = _ at hlength
  rw [(hdistinct.perm hfound.symm).uniqueItemsList_eq, hfound.length_eq] at hlength
  revert hlength
  decide +kernel

end GrooveIp.Search
