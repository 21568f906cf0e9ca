import GrooveIp.Friends.References
import GrooveIp.Lib.OwnerIndex

/-!
# What a friend list finds

The multimaps of a friend list are indexes of the keys and the uris of its friends. Each operation
that changes what a friend has changes the index too, and does it right where the entry that it
finds is the friend's own.
-/

namespace GrooveIp.Friends

open Lib List Function Friend FriendList MultiMap

variable {F A : Type} [DecidableEq F] (api : AddressApi A) (proxy : Option ProxyConfig)

/-- The uri that a number is converted to. -/
def sipUri (phone : Text) : Option Text :=
  proxy.bind fun proxy => (proxy.normalize (stripTel phone)).map proxy.numberUri

/-- The uri that is forgotten when a number is converted. -/
def forgottenUri (phone : Text) : Option Text :=
  proxy.bind fun proxy => (proxy.normalize (stripTel phone)).bind fun normalized =>
    if normalized ≠ stripTel phone then some (proxy.numberUri (stripTel phone)) else none

/-- The uris of the addresses that a vCard has. -/
def Vcard.addressUris (vcard : Vcard A) : List Text := (vcard.readAddresses api).map api.uriOnly

/-- The uris of the numbers of a friend. -/
def Friend.phoneUris (friend : Friend A) : List Text := friend.getPhoneNumbers.filterMap
    (sipUri proxy)

/-- The uris of the addresses of a friend. -/
def Friend.addressUris (friend : Friend A) : List Text :=
  match friend.vcard with
  | none => []
  | some vcard => vcard.addressUris api

/-- The uris that a friend is to be found by. -/
def Friend.uris (friend : Friend A) : List Text := friend.phoneUris proxy ++ friend.addressUris api

/-- The keys that a friend is to be found by. -/
def Friend.keys (friend : Friend A) : List Text := friend.refkey.toList

namespace FriendList

variable (list : FriendList F A) (lf : F)

variable {number : Text} (uri : Text)

/-- The friends under a uri, in the order in which they were put there. -/
def underUri : List F := list.friendsMapUri.values uri

/-- The friends under a key. -/
def underKey (key : Text) : List F := list.friendsMap.values key

variable {list lf}

omit [DecidableEq F] in
theorem findFriendByUri_eq : list.findFriendByUri uri = (list.underUri uri).head? :=
  find_eq_head? _ _

omit [DecidableEq F] in
theorem findFriendByRefKey_eq (key : Text) :
    list.findFriendByRefKey key = (list.underKey key).head? :=
  find_eq_head? _ _

/-! ## Entries -/

theorem underUri_insertUri (uri' : Text) : (list.insertUri lf uri).underUri uri'
      = list.underUri uri' ++ if uri = uri' then [lf] else [] :=
  values_insert _ _ _ _

theorem underKey_insertKey (key key' : Text) : (list.insertKey lf key).underKey key'
      = list.underKey key' ++ if key = key' then [lf] else [] :=
  values_insert _ _ _ _

theorem underUri_eraseUri (uri' : Text) : (list.eraseUri uri).underUri uri'
      = if uri = uri' then (list.underUri uri').tail else list.underUri uri' := by
  unfold eraseUri
  split
  · next hnone =>
    split
    · next heq =>
      rw [find_eq_head?, List.head?_eq_none_iff, heq] at hnone
      unfold underUri
      rw [hnone]
      rfl
    · rfl
  · exact values_erase _ _ _

theorem underKey_eraseKey (key key' : Text) : (list.eraseKey key).underKey key'
      = if key = key' then (list.underKey key').tail else list.underKey key' := by
  unfold eraseKey
  split
  · next hnone =>
    split
    · next heq =>
      rw [find_eq_head?, List.head?_eq_none_iff, heq] at hnone
      unfold underKey
      rw [hnone]
      rfl
    · rfl
  · exact values_erase _ _ _

/-- The friends, the links and the keys are the same in two lists. -/
structure SameFriends (list list' : FriendList F A) : Prop where
  friend : list'.friend = list.friend
  friends : list'.friends = list.friends
  friendsMap : list'.friendsMap = list.friendsMap

open SameFriends

omit [DecidableEq F] in
theorem SameFriends.refl (list : FriendList F A) : SameFriends list list := ⟨rfl, rfl, rfl⟩

variable {list' : FriendList F A}

omit [DecidableEq F] in
theorem SameFriends.trans {list'' : FriendList F A} (h : SameFriends list list')
    (h' : SameFriends list' list'') : SameFriends list list'' where
  friend := h'.friend.trans h.friend
  friends := h'.friends.trans h.friends
  friendsMap := h'.friendsMap.trans h.friendsMap

theorem sameFriends_insertUri : SameFriends list (list.insertUri lf uri) :=
  ⟨rfl, rfl, rfl⟩

theorem sameFriends_eraseUri : SameFriends list (list.eraseUri uri) := by
  unfold eraseUri
  split
  · exact refl list
  · exact ⟨rfl, rfl, rfl⟩

/-! ## Numbers -/

theorem phoneNumberToSipUri_fst (phone : Text) :
    (list.phoneNumberToSipUri lf proxy phone).1 = sipUri proxy phone := by
  unfold phoneNumberToSipUri sipUri
  cases proxy with
  | none => rfl
  | some proxy => cases hnormalized : proxy.normalize (stripTel phone) <;> simp [hnormalized]

theorem sameFriends_phoneNumberToSipUri (phone : Text) :
    SameFriends list (list.phoneNumberToSipUri lf proxy phone).2 := by
  unfold phoneNumberToSipUri
  split
  · exact refl list
  · next proxy =>
    split
    · exact refl list
    · next normalized _ =>
      have hforget : SameFriends list (list.forgetNumber proxy (stripTel phone) normalized) := by
        unfold forgetNumber
        split
        · exact sameFriends_eraseUri _
        · exact refl list
      refine hforget.trans ?_
      show SameFriends _ (insertMissing _ lf _)
      unfold insertMissing
      split
      · exact sameFriends_insertUri _
      · exact refl _

theorem underUri_phoneNumberToSipUri (lf : F) {phone : Text}
    (hforgotten : ∀ uri, forgottenUri proxy phone = some uri → list.underUri uri = [])
    (uri : Text) : (list.phoneNumberToSipUri lf proxy phone).2.underUri uri = list.underUri uri ++
        if sipUri proxy phone = some uri ∧ list.underUri uri = [] then [lf] else [] := by
  unfold phoneNumberToSipUri
  unfold sipUri forgottenUri at *
  cases proxy with
  | none => simp
  | some proxy =>
    dsimp only
    cases hnormalized : proxy.normalize (stripTel phone) with
    | none => simp [hnormalized]
    | some normalized =>
      have hforget : ∀ uri, (list.forgetNumber proxy (stripTel phone) normalized).underUri uri
          = list.underUri uri := by
        intro uri
        unfold forgetNumber
        split
        · next hne =>
          have hempty := hforgotten (proxy.numberUri (stripTel phone)) (by simp [hnormalized, hne])
          rw [underUri_eraseUri]
          split
          · next heq =>
            rw [← heq, hempty]
            rfl
          · rfl
        · rfl
      dsimp only
      unfold insertMissing
      rw [findFriendByUri_eq, hforget]
      split
      · next hnone =>
        rw [List.head?_eq_none_iff] at hnone
        rw [underUri_insertUri, hforget]
        congr 1
        by_cases heq : proxy.numberUri normalized = uri
        · subst heq
          simp [hnormalized, hnone]
        · simp [hnormalized, heq]
      · next found hfound =>
        rw [hforget]
        by_cases heq : proxy.numberUri normalized = uri
        · subst heq
          have hsome : list.underUri (proxy.numberUri normalized) ≠ [] := by
            intro hnil
            rw [hnil] at hfound
            cases hfound
          simp [hsome]
        · simp [hnormalized, heq]

theorem sameFriends_importNumber (number : Text) :
    SameFriends list (list.importNumber lf proxy number) := by
  have hconverted : SameFriends list (list.phoneNumberToSipUri lf proxy number).2 :=
    sameFriends_phoneNumberToSipUri proxy number
  unfold importNumber
  split
  · next heq => rwa [heq] at hconverted
  · next heq =>
    rw [heq] at hconverted
    exact hconverted.trans (sameFriends_insertUri _)

theorem sameFriends_removeNumber (number : Text) :
    SameFriends list (list.removeNumber lf proxy number) := by
  have hconverted : SameFriends list (list.phoneNumberToSipUri lf proxy number).2 :=
    sameFriends_phoneNumberToSipUri proxy number
  unfold removeNumber
  split
  · next heq => rwa [heq] at hconverted
  · next heq =>
    rw [heq] at hconverted
    exact hconverted.trans (sameFriends_eraseUri _)

/-- A number that is imported leaves one entry or two. -/
theorem underUri_importNumber (lf : F)
    (hforgotten : ∀ uri, forgottenUri proxy number = some uri → list.underUri uri = [])
    (uri : Text) : (list.importNumber lf proxy number).underUri uri = (list.underUri uri ++
          if sipUri proxy number = some uri ∧ list.underUri uri = [] then [lf] else []) ++
        if sipUri proxy number = some uri then [lf] else [] := by
  have hconverted := underUri_phoneNumberToSipUri proxy lf hforgotten uri
  have hfst : (list.phoneNumberToSipUri lf proxy number).1 = sipUri proxy number :=
    phoneNumberToSipUri_fst proxy number
  unfold importNumber
  split
  · next heq =>
    rw [heq] at hconverted hfst
    rw [hconverted, ← hfst]
    simp
  · next converted heq =>
    rw [heq] at hconverted hfst
    rw [underUri_insertUri, hconverted, ← hfst]
    simp

/-- A number that is removed takes the first entry. -/
theorem underUri_removeNumber (lf : F)
    (hforgotten : ∀ uri, forgottenUri proxy number = some uri → list.underUri uri = [])
    (uri : Text) : (list.removeNumber lf proxy number).underUri uri
      = if sipUri proxy number = some uri then (list.underUri uri).tail else list.underUri uri := by
  have hconverted := underUri_phoneNumberToSipUri proxy lf hforgotten uri
  have hfst : (list.phoneNumberToSipUri lf proxy number).1 = sipUri proxy number :=
    phoneNumberToSipUri_fst proxy number
  unfold removeNumber
  split
  · next heq =>
    rw [heq] at hconverted hfst
    rw [hconverted, ← hfst]
    simp
  · next converted _ heq =>
    rw [heq] at hconverted hfst
    rw [underUri_eraseUri, hconverted, ← hfst]
    by_cases hsame : converted = uri
    · subst hsame
      cases hunder : list.underUri converted <;> simp
    · simp [hsame]

/-! ## Loops -/

variable {keys : F → List Text}

/-- A number that is imported gives its uri to the friend. -/
theorem covers_importNumber (h : Covers list.friends keys list.underUri) (hlf : lf ∈ list.friends)
    
    (hforgotten : ∀ uri, forgottenUri proxy number = some uri → list.underUri uri = []) :
    Covers list.friends (update keys lf (keys lf ++ (sipUri proxy number).toList))
      (list.importNumber lf proxy number).underUri := by
  have hunder := underUri_importNumber proxy lf hforgotten
  cases hnumber : sipUri proxy number with
  | none =>
    have hsame : (list.importNumber lf proxy number).underUri = list.underUri := by
      funext uri
      rw [hunder, hnumber]
      simp
    rw [hsame]
    simpa using h
  | some uri =>
    have hgiven := h.give hlf uri
    by_cases hempty : list.underUri uri = []
    · have hsurplus := hgiven.surplus hlf (show uri ∈ update keys lf (keys lf ++ [uri]) lf by simp)
      have htwice : (list.importNumber lf proxy number).underUri
          = fun uri' => (list.underUri uri' ++ if uri = uri' then [lf] else []) ++
              if uri = uri' then [lf] else [] := by
        funext uri'
        rw [hunder, hnumber]
        by_cases heq : uri = uri'
        · subst heq
          simp [hempty]
        · simp [heq]
      rw [htwice]
      exact hsurplus
    · have honce : (list.importNumber lf proxy number).underUri
          = fun uri' => list.underUri uri' ++ if uri = uri' then [lf] else [] := by
        funext uri'
        rw [hunder, hnumber]
        by_cases heq : uri = uri'
        · subst heq
          simp [hempty]
        · simp [heq]
      rw [honce]
      exact hgiven

/-- No entry is lost when the numbers are converted. -/
def KeepsNumbers (list : FriendList F A) (proxy : Option ProxyConfig) (numbers : List Text) :
    Prop :=
  ∀ number ∈ numbers, ∀ uri, forgottenUri proxy number = some uri → list.underUri uri = []

theorem foldl_importNumber (numbers : List Text)
    (h : Covers list.friends keys list.underUri) (hlf : lf ∈ list.friends)
    (hkeeps : list.KeepsNumbers proxy numbers)
    (hown : ∀ number ∈ numbers, ∀ uri, forgottenUri proxy number = some uri → uri ∉
      numbers.filterMap (sipUri proxy)) :
    let list' := numbers.foldl (fun list number => list.importNumber lf proxy number) list
    SameFriends list list' ∧ Covers list.friends
      (update keys lf (keys lf ++ numbers.filterMap (sipUri proxy))) list'.underUri := by
  induction numbers generalizing list keys with
  | nil =>
    refine ⟨refl list, ?_⟩
    simpa using h
  | cons number rest ih =>
    have hsame : SameFriends list (list.importNumber lf proxy number) :=
      sameFriends_importNumber proxy number
    have hforgotten := hkeeps number (mem_cons_self ..)
    have hstep := covers_importNumber proxy h hlf hforgotten
    rw [← hsame.friends] at hstep
    have hkeeps' : (list.importNumber lf proxy number).KeepsNumbers proxy rest := by
      intro number' hnumber' uri huri
      have hne : sipUri proxy number ≠ some uri := by
        intro heq
        refine hown number' (mem_cons_of_mem _ hnumber') uri huri ?_
        exact mem_filterMap.mpr ⟨number, mem_cons_self .., heq⟩
      rw [underUri_importNumber proxy lf hforgotten, if_neg (fun hand => hne hand.1), if_neg hne,
        hkeeps number' (mem_cons_of_mem _ hnumber') uri huri]
      rfl
    have hown' : ∀ number' ∈ rest, ∀ uri, forgottenUri proxy number' = some uri →
        uri ∉ rest.filterMap (sipUri proxy) := by
      intro number' hnumber' uri huri hmem
      refine hown number' (mem_cons_of_mem _ hnumber') uri huri ?_
      obtain ⟨number'', hnumber'', heq⟩ := mem_filterMap.mp hmem
      exact mem_filterMap.mpr ⟨number'', mem_cons_of_mem _ hnumber'', heq⟩
    have hrest := ih hstep (hsame.friends ▸ hlf) hkeeps' hown'
    refine ⟨hsame.trans hrest.1, ?_⟩
    have hcovers := hrest.2
    rw [hsame.friends, update_idem, update_self] at hcovers
    have hkeys : keys lf ++ (number :: rest).filterMap (sipUri proxy)
        = keys lf ++ (sipUri proxy number).toList ++ rest.filterMap (sipUri proxy) := by
      cases hnumber : sipUri proxy number <;> simp [hnumber]
    rw [hkeys]
    exact hcovers

theorem foldl_importAddress (list : FriendList F A) (addresses : List A)
    (h : Covers list.friends keys list.underUri) (hlf : lf ∈ list.friends) :
    let list' := addresses.foldl (fun list address => list.importAddress api lf address) list
    SameFriends list list' ∧ Covers list.friends
      (update keys lf (keys lf ++ addresses.map api.uriOnly)) list'.underUri := by
  induction addresses generalizing list keys with
  | nil =>
    refine ⟨refl list, ?_⟩
    simpa using h
  | cons address rest ih =>
    have hgiven := h.give hlf (api.uriOnly address)
    have hunder : (list.importAddress api lf address).underUri
        = fun uri => list.underUri uri ++ if api.uriOnly address = uri then [lf] else [] :=
      funext fun uri => underUri_insertUri _ _
    rw [← hunder] at hgiven
    have hrest := ih (list.importAddress api lf address) hgiven hlf
    refine ⟨(sameFriends_insertUri _).trans hrest.1, ?_⟩
    have hcovers := hrest.2
    rw [update_idem, update_self, append_assoc] at hcovers
    exact hcovers

theorem foldl_removeNumber (numbers : List Text) (hkeeps : list.KeepsNumbers proxy numbers) :
    let list' := numbers.foldl (fun list number => list.removeNumber lf proxy number) list
    SameFriends list list' ∧ ∀ uri, list'.underUri uri
      = (list.underUri uri).drop ((numbers.filterMap (sipUri proxy)).count uri) := by
  induction numbers generalizing list with
  | nil => exact ⟨refl list, fun uri => rfl⟩
  | cons number rest ih =>
    have hunder := underUri_removeNumber proxy lf (hkeeps number (mem_cons_self ..))
    have hkeeps' : (list.removeNumber lf proxy number).KeepsNumbers proxy rest := by
      intro number' hnumber' uri huri
      rw [hunder, hkeeps number' (mem_cons_of_mem _ hnumber') uri huri]
      simp
    have hrest := ih hkeeps'
    refine ⟨(sameFriends_removeNumber proxy number).trans hrest.1, fun uri => ?_⟩
    refine (hrest.2 uri).trans ?_
    rw [hunder]
    cases hnumber : sipUri proxy number with
    | none => simp [hnumber]
    | some converted =>
      rw [filterMap_cons_some hnumber, count_cons]
      by_cases heq : converted = uri
      · subst heq
        simp [drop_tail]
      · simp [heq]

theorem foldl_eraseAddress (list : FriendList F A) (addresses : List A) :
    let list' := addresses.foldl (fun list address => list.eraseUri (api.uriOnly address)) list
    SameFriends list list' ∧ ∀ uri, list'.underUri uri
      = (list.underUri uri).drop ((addresses.map api.uriOnly).count uri) := by
  induction addresses generalizing list with
  | nil => exact ⟨refl list, fun uri => rfl⟩
  | cons address rest ih =>
    have hrest := ih (list.eraseUri (api.uriOnly address))
    refine ⟨(sameFriends_eraseUri _).trans hrest.1, fun uri => ?_⟩
    refine (hrest.2 uri).trans ?_
    rw [underUri_eraseUri, map_cons, count_cons]
    by_cases heq : api.uriOnly address = uri
    · subst heq
      simp [drop_tail]
    · simp [heq]

/-! ## What the containers keep -/

/-- The containers say what the friends of the list have. -/
structure Kept (list : FriendList F A) : Prop where
  nodup : list.friends.Nodup
  inList : ∀ lf ∈ list.friends, (list.friend lf).inList = true
  uris : Covers list.friends (fun lf => (list.friend lf).uris api proxy) list.underUri
  keys : Covers list.friends (fun lf => (list.friend lf).keys) list.underKey
  once : ∀ key lf, (list.underKey key).count lf ≤ 1

variable {api proxy}

theorem Kept.not_mem (h : Kept api proxy list) (hlf : (list.friend lf).inList = false) :
    lf ∉ list.friends := by
  intro hmem
  rw [h.inList lf hmem] at hlf
  cases hlf

theorem update_friend {α : Type} (friends : F → Friend A) (lf : F) (friend : Friend A)
    (get : Friend A → α) : (fun lf' => get (update friends lf friend lf'))
      = update (fun lf' => get (friends lf')) lf (get friend) := by
  funext lf'
  by_cases h : lf' = lf
  · subst h
    simp
  · simp [update_of_ne h]

/-- One friend changes, and the index of the uris with it. -/
theorem Kept.change (h : Kept api proxy list) (friend : Friend A) {uris : List Text}
    (hfriend : list'.friend = update list.friend lf friend)
    (hfriends : list'.friends = list.friends) (hmap : list'.friendsMap = list.friendsMap)
    (hkey : lf ∈ list.friends → friend.refkey = (list.friend lf).refkey)
    (hin : friend.inList = (list.friend lf).inList)
    (hcovers : Covers list.friends (update (fun lf' => (list.friend lf').uris api proxy) lf
      uris) list'.underUri)
    (hcount : lf ∈ list.friends → ∀ uri, (friend.uris api proxy).count uri = uris.count uri) :
    Kept api proxy list' where
  nodup := hfriends ▸ h.nodup
  inList lf' hmem := by
    rw [hfriends] at hmem
    rw [hfriend]
    by_cases heq : lf' = lf
    · subst heq
      rw [update_self, hin]
      exact h.inList lf' hmem
    · rw [update_of_ne heq]
      exact h.inList lf' hmem
  uris := by
    rw [hfriends, hfriend, update_friend list.friend lf friend (·.uris api proxy)]
    refine hcovers.congr (fun lf' hmem uri => ?_)
    by_cases heq : lf' = lf
    · subst heq
      rw [update_self, update_self]
      exact hcount hmem uri
    · rw [update_of_ne heq, update_of_ne heq]
  keys := by
    have hunder : list'.underKey = list.underKey := by
      funext key
      unfold underKey
      rw [hmap]
    rw [hfriends, hfriend, hunder, update_friend list.friend lf friend (·.keys)]
    refine h.keys.congr (fun lf' hmem key => ?_)
    by_cases heq : lf' = lf
    · subst heq
      rw [update_self]
      unfold Friend.keys
      rw [hkey hmem]
    · rw [update_of_ne heq]
  once key lf' := by
    unfold underKey
    rw [hmap]
    exact h.once key lf'

/-- One friend changes, and the index of the uris need not. -/
theorem Kept.setFriend (h : Kept api proxy list) {friend : Friend A}
    (hkey : lf ∈ list.friends → friend.refkey = (list.friend lf).refkey)
    (hin : friend.inList = (list.friend lf).inList) (hcount : lf ∈ list.friends → ∀ uri,
      (friend.uris api proxy).count uri = ((list.friend lf).uris api proxy).count uri) :
    Kept api proxy (list.setFriend lf friend) := by
  refine h.change friend rfl rfl rfl hkey hin ?_ hcount
  rw [update_eq_self]
  exact h.uris

/-- References and dirty friends are not what the indexes are about. -/
theorem Kept.of_same (h : Kept api proxy list) (hsame : SameFriends list list')
    (hmap : list'.friendsMapUri = list.friendsMapUri) : Kept api proxy list' := by
  have huri : list'.underUri = list.underUri := by
    funext uri
    unfold underUri
    rw [hmap]
  have hkey : list'.underKey = list.underKey := by
    funext key
    unfold underKey
    rw [hsame.friendsMap]
  constructor
  · exact hsame.friends ▸ h.nodup
  · rw [hsame.friends, hsame.friend]
    exact h.inList
  · rw [hsame.friends, hsame.friend, huri]
    exact h.uris
  · rw [hsame.friends, hsame.friend, hkey]
    exact h.keys
  · rw [hkey]
    exact h.once

end FriendList

/-! ## Addresses that were read before -/

/-- The addresses that a friend gives are those that its vCard has. -/
def Friend.Fresh (friend : Friend A) : Prop :=
  ∀ vcard, friend.vcard = some vcard → vcard.getSipAddresses api = vcard.readAddresses api

omit [DecidableEq F] in
@[simp] theorem Vcard.getSipAddresses_cached (vcard : Vcard A) :
    (vcard.cached api).getSipAddresses api = vcard.getSipAddresses api := by
  unfold Vcard.cached
  cases hcache : vcard.getSipAddresses api with
  | nil =>
    show vcard.readAddresses api = []
    rw [← hcache]
    unfold Vcard.getSipAddresses at hcache ⊢
    split
    · rfl
    · next hne _ =>
      split at hcache
      · contradiction
      · contradiction
  | cons address rest => rfl

omit [DecidableEq F] in
theorem Friend.getAddresses_of_fresh {friend : Friend A} (h : friend.Fresh api) :
    (friend.getAddresses api).map api.uriOnly = friend.addressUris api := by
  unfold getAddresses addressUris
  cases hvcard : friend.vcard with
  | none => rfl
  | some vcard =>
    show (vcard.getSipAddresses api).map api.uriOnly = _
    rw [h vcard hvcard]
    rfl

/-- Neither the list that a friend is in nor its cache is what it is to be found by. -/
theorem Friend.uris_congr (friend : Friend A) {friend' : Friend A} (change : Vcard A → Vcard A)
    (h : friend'.vcard = friend.vcard.map change)
    (himpps : ∀ vcard, (change vcard).impps = vcard.impps)
    (hnumbers : ∀ vcard, (change vcard).phoneNumbers = vcard.phoneNumbers) :
    friend'.uris api proxy = friend.uris api proxy := by
  unfold Friend.uris phoneUris addressUris getPhoneNumbers
  rw [h]
  cases friend.vcard with
  | none => rfl
  | some vcard =>
    simp [Vcard.addressUris, Vcard.readAddresses, himpps, hnumbers]

namespace FriendList

variable {api proxy} {list : FriendList F A} {lf : F}

theorem cacheAddresses_friend (api : AddressApi A) (list : FriendList F A) (lf : F) :
    (list.cacheAddresses api lf).friend
      = update list.friend lf ((list.friend lf).withVcard (·.cached api)) := rfl

theorem Kept.cacheAddresses (h : Kept api proxy list) (lf : F) :
    Kept api proxy (list.cacheAddresses api lf) := by
  refine h.setFriend (fun _ => rfl) rfl (fun _ uri => ?_)
  rw [uris_congr api proxy (list.friend lf) (·.cached api) rfl (fun _ => rfl) (fun _ => rfl)]

/-! ## Friends that come -/

/-- The friend can be imported: its addresses are those that it gives, and no entry is lost when its
numbers are converted. -/
structure Importable (api : AddressApi A) (proxy : Option ProxyConfig) (list : FriendList F A)
    (lf : F) : Prop where
  fresh : (list.friend lf).Fresh api
  keepsNumbers : list.KeepsNumbers proxy (list.friend lf).getPhoneNumbers
  ownNumbers : ∀ number ∈ (list.friend lf).getPhoneNumbers, ∀ uri,
    forgottenUri proxy number = some uri → uri ∉ (list.friend lf).phoneUris proxy

theorem Kept.enterFriend (h : Kept api proxy list) (hlf : lf ∉ list.friends) :
    Covers (list.enterFriend lf).friends
        (update (fun lf' => (list.friend lf').uris api proxy) lf [])
        (list.enterFriend lf).underUri ∧ Covers (list.enterFriend lf).friends
        (update (fun lf' => (list.friend lf').keys) lf []) (list.enterFriend lf).underKey :=
  ⟨h.uris.enter hlf, h.keys.enter hlf⟩

variable {keys : F → List Text}

theorem importKey_spec (h : Covers list.friends keys list.underKey) (hlf : lf ∈ list.friends)
    (hnone : ∀ key, lf ∉ list.underKey key) (honce : ∀ key lf', (list.underKey key).count lf' ≤ 1) :
    (list.importKey lf).friend = list.friend ∧ (list.importKey lf).friends = list.friends ∧
      (list.importKey lf).underUri = list.underUri ∧
      Covers list.friends (update keys lf (keys lf ++ (list.friend lf).keys))
        (list.importKey lf).underKey ∧
      ∀ key lf', ((list.importKey lf).underKey key).count lf' ≤ 1 := by
  unfold importKey
  split
  · next hkey =>
    refine ⟨rfl, rfl, rfl, ?_, honce⟩
    unfold Friend.keys
    rw [hkey]
    simpa using h
  · next refkey hkey =>
    have hunder : (list.insertKey lf refkey).underKey
        = fun key => list.underKey key ++ if refkey = key then [lf] else [] :=
      funext fun key => underKey_insertKey _ _
    refine ⟨rfl, rfl, rfl, ?_, ?_⟩
    · unfold Friend.keys
      rw [hunder, hkey]
      exact h.give hlf refkey
    · intro key lf'
      rw [hunder, count_append]
      by_cases heq : lf' = lf
      · subst heq
        rw [count_eq_zero_of_not_mem (hnone key)]
        split <;> simp
      · have hother : List.count lf' (if refkey = key then [lf] else []) = 0 := by
          rw [count_eq_zero]
          split <;> simp [heq]
        rw [hother]
        exact honce key lf'

theorem importNumbers_spec (proxy : Option ProxyConfig)
    (h : Covers list.friends keys list.underUri) (hlf : lf ∈ list.friends)
    (hkeeps : list.KeepsNumbers proxy (list.friend lf).getPhoneNumbers)
    (hown : ∀ number ∈ (list.friend lf).getPhoneNumbers, ∀ uri, forgottenUri proxy number = some
      uri → uri ∉ (list.friend lf).phoneUris proxy) :
    SameFriends list (list.importNumbers lf proxy) ∧ Covers list.friends
      (update keys lf (keys lf ++ (list.friend lf).phoneUris proxy))
      (list.importNumbers lf proxy).underUri :=
  foldl_importNumber proxy _ h hlf hkeeps hown

theorem importAddresses_spec (h : Covers list.friends keys list.underUri)
    (hlf : lf ∈ list.friends) (hfresh : (list.friend lf).Fresh api) :
    SameFriends (list.cacheAddresses api lf) (list.importAddresses api lf) ∧ Covers list.friends
      (update keys lf (keys lf ++ (list.friend lf).addressUris api))
      (list.importAddresses api lf).underUri := by
  rw [← getAddresses_of_fresh api hfresh]
  exact foldl_importAddress api (list.cacheAddresses api lf) _ h hlf

theorem Kept.of_imported (h : Kept api proxy list) (hlf : lf ∉ list.friends)
    {list' : FriendList F A} (friend : Friend A)
    (hfriend : list'.friend = update list.friend lf friend)
    (hfriends : list'.friends = lf :: list.friends) (hin : friend.inList = true)
    (huris : Covers (lf :: list.friends)
      (update (fun lf' => (list.friend lf').uris api proxy) lf (friend.uris api proxy))
      list'.underUri) (hkeys : Covers (lf :: list.friends)
      (update (fun lf' => (list.friend lf').keys) lf friend.keys) list'.underKey)
    (honce : ∀ key lf', (list'.underKey key).count lf' ≤ 1) : Kept api proxy list' where
  nodup := by
    rw [hfriends]
    exact nodup_cons.mpr ⟨hlf, h.nodup⟩
  inList lf' hmem := by
    rw [hfriend]
    by_cases heq : lf' = lf
    · subst heq
      rwa [update_self]
    · rw [hfriends] at hmem
      rw [update_of_ne heq]
      exact h.inList lf' ((mem_cons.mp hmem).resolve_left heq)
  uris := by
    rw [hfriends, hfriend, update_friend list.friend lf friend (·.uris api proxy)]
    exact huris
  keys := by
    rw [hfriends, hfriend, update_friend list.friend lf friend (·.keys)]
    exact hkeys
  once := honce

theorem Kept.importFriend (h : Kept api proxy list) (synchronize : Bool)
    (himportable : (list.friend lf).inList = false → Importable api proxy list lf) :
    Kept api proxy (list.importFriend api lf proxy synchronize).2 := by
  unfold FriendList.importFriend
  split
  · exact h
  · next hout =>
    rw [Bool.not_eq_true] at hout
    have hlf := h.not_mem hout
    have hfree := himportable hout
    have hentered := h.enterFriend hlf
    have hmem : lf ∈ (list.enterFriend lf).friends := mem_cons_self ..
    obtain ⟨hfriend, hfriends, hunder, hkeys, honce⟩ := importKey_spec hentered.2 hmem
      (fun key hkey => hlf (h.keys.sound key lf hkey).1) h.once
    have hself : ((list.enterFriend lf).importKey lf).friend lf
        = { list.friend lf with inList := true } := by
      rw [hfriend]
      exact update_self ..
    rw [← hfriends] at hmem
    rw [← hfriends, ← hunder] at hentered
    have hnumbers := importNumbers_spec proxy hentered.1 hmem (by
        intro number hnumber uri huri
        rw [hunder]
        rw [hself] at hnumber
        exact hfree.keepsNumbers number hnumber uri huri) (by
        rw [hself]
        exact hfree.ownNumbers)
    rw [hself, update_self, update_idem, nil_append] at hnumbers
    have hfresh : ((((list.enterFriend lf).importKey lf).importNumbers lf proxy).friend lf).Fresh
      api := by
      rw [hnumbers.1.friend, hself]
      exact hfree.fresh
    have haddresses := importAddresses_spec (hnumbers.1.friends ▸ hnumbers.2)
      (hnumbers.1.friends ▸ hmem) hfresh
    have haddressUris : ({ list.friend lf with inList := true } : Friend A).addressUris api
        = (list.friend lf).addressUris api := rfl
    rw [hnumbers.1.friends, hfriends, hnumbers.1.friend, hself, update_idem,
      update_self, haddressUris] at haddresses
    have hunderKey : ((((list.enterFriend lf).importKey lf).importNumbers lf proxy).importAddresses
      api lf).underKey = ((list.enterFriend lf).importKey lf).underKey := by
      funext key
      unfold underKey
      rw [haddresses.1.friendsMap]
      exact congrArg (values · key) hnumbers.1.friendsMap
    have hkept : Kept api proxy
        ((((list.enterFriend lf).importKey lf).importNumbers lf proxy).importAddresses api lf) := by
      refine h.of_imported hlf (({ list.friend lf with inList := true } : Friend A).withVcard
        (·.cached api)) ?_ ?_ rfl ?_ ?_ ?_
      · rw [haddresses.1.friend, cacheAddresses_friend, hnumbers.1.friend, hself, hfriend]
        exact update_idem ..
      · rw [haddresses.1.friends]
        exact hnumbers.1.friends.trans hfriends
      · rw [uris_congr api proxy (list.friend lf) (·.cached api) rfl (fun _ => rfl)
          (fun _ => rfl)]
        exact haddresses.2
      · rw [hunderKey]
        rw [update_idem, update_self, nil_append,
          show (list.enterFriend lf).friend lf = { list.friend lf with inList := true } from
            update_self ..] at hkeys
        exact hkeys
      · rw [hunderKey]
        exact honce
    split
    · exact hkept.of_same ⟨rfl, rfl, rfl⟩ rfl
    · exact hkept

theorem Importable.cacheAddresses (h : Importable api proxy list lf) :
    Importable api proxy (list.cacheAddresses api lf) lf := by
  have hself : (list.cacheAddresses api lf).friend lf = (list.friend lf).withVcard (·.cached api) :=
    update_self ..
  have hnumbers : ((list.friend lf).withVcard (·.cached api)).getPhoneNumbers
      = (list.friend lf).getPhoneNumbers := by
    unfold getPhoneNumbers withVcard
    cases (list.friend lf).vcard with
    | none => rfl
    | some vcard => rfl
  constructor
  · rw [hself]
    intro vcard hvcard
    obtain ⟨vcard', hvcard', rfl⟩ := Option.map_eq_some_iff.mp hvcard
    rw [Vcard.getSipAddresses_cached]
    exact h.fresh vcard' hvcard'
  · rw [hself, hnumbers]
    exact h.keepsNumbers
  · unfold phoneUris
    rw [hself, hnumbers]
    exact h.ownNumbers

theorem Kept.addFriend (h : Kept api proxy list) (synchronize : Bool)
    (himportable : (list.friend lf).inList = false → list.present lf = false →
      Importable api proxy list lf) :
    Kept api proxy (list.addFriend api lf proxy synchronize).2 := by
  unfold FriendList.addFriend
  split
  · exact h
  · next hout =>
    rw [Bool.not_eq_true] at hout
    have hpresent : (list.cacheAddresses api lf).present lf = list.present lf := by
      unfold present
      rw [show ((list.cacheAddresses api lf).friend lf).refkey = (list.friend lf).refkey by
        rw [cacheAddresses_friend, update_self]
        rfl]
      rfl
    dsimp only
    rw [hpresent]
    split
    · exact h.cacheAddresses lf
    · next habsent =>
      rw [Bool.not_eq_true] at habsent
      exact (h.cacheAddresses lf).importFriend synchronize
        (fun _ => (himportable hout habsent).cacheAddresses)

/-! ## Friends that go -/

/-- The friend can be removed: under each of its uris there are as many entries of the friend as it
has the uri, and nothing was put there before. -/
structure Removable (api : AddressApi A) (proxy : Option ProxyConfig) (list : FriendList F A)
    (lf : F) : Prop where
  fresh : (list.friend lf).Fresh api
  keepsNumbers : list.KeepsNumbers proxy (list.friend lf).getPhoneNumbers
  first : ∀ uri ∈ (list.friend lf).uris api proxy, ∃ rest, list.underUri uri
    = List.replicate (((list.friend lf).uris api proxy).count uri) lf ++ rest ∧ lf ∉ rest
  firstKey : ∀ key ∈ (list.friend lf).keys, (list.underKey key).head? = some lf

theorem removeKey_spec (list : FriendList F A) (lf : F) :
    (list.removeKey lf).friend = list.friend ∧ (list.removeKey lf).friends = list.friends ∧
      (list.removeKey lf).underUri = list.underUri ∧ ∀ key, (list.removeKey lf).underKey key
        = (list.underKey key).drop ((list.friend lf).keys.count key) := by
  unfold removeKey Friend.keys
  cases hkey : (list.friend lf).refkey with
  | none => exact ⟨rfl, rfl, rfl, fun key => rfl⟩
  | some refkey =>
    have hframe : (list.eraseKey refkey).friend = list.friend ∧
        (list.eraseKey refkey).friends = list.friends ∧
        (list.eraseKey refkey).underUri = list.underUri := by
      unfold eraseKey
      split
      · exact ⟨rfl, rfl, rfl⟩
      · exact ⟨rfl, rfl, rfl⟩
    refine ⟨hframe.1, hframe.2.1, hframe.2.2, fun key => ?_⟩
    rw [underKey_eraseKey]
    by_cases heq : refkey = key
    · subst heq
      simp
    · simp [heq]

theorem removeNumbers_spec (list : FriendList F A) (lf : F) (proxy : Option ProxyConfig)
    (hkeeps : list.KeepsNumbers proxy (list.friend lf).getPhoneNumbers) :
    SameFriends list (list.removeNumbers lf proxy) ∧
      ∀ uri, (list.removeNumbers lf proxy).underUri uri
        = (list.underUri uri).drop (((list.friend lf).phoneUris proxy).count uri) :=
  foldl_removeNumber proxy _ hkeeps

theorem removeAddresses_spec (list : FriendList F A) (lf : F)
    (hfresh : (list.friend lf).Fresh api) :
    SameFriends (list.cacheAddresses api lf) (list.removeAddresses api lf) ∧
      ∀ uri, (list.removeAddresses api lf).underUri uri
        = (list.underUri uri).drop (((list.friend lf).addressUris api).count uri) := by
  rw [← getAddresses_of_fresh api hfresh]
  exact foldl_eraseAddress api (list.cacheAddresses api lf) _

theorem Removable.leadsKey (hfree : Removable api proxy list lf)
    (honce : ∀ key lf', (list.underKey key).count lf' ≤ 1) :
    ∀ key ∈ (list.friend lf).keys, ∃ rest, list.underKey key
      = List.replicate ((list.friend lf).keys.count key) lf ++ rest ∧ lf ∉ rest := by
  intro key hmem
  obtain ⟨rest, hrest⟩ := List.head?_eq_some_iff.mp (hfree.firstKey key hmem)
  have hcount : (list.friend lf).keys.count key = 1 := by
    have hkey : (list.friend lf).refkey = some key := by
      unfold Friend.keys at hmem
      simpa using hmem
    unfold Friend.keys
    rw [hkey]
    simp
  refine ⟨rest, ?_, ?_⟩
  · rw [hcount, hrest]
    rfl
  · have hone := honce key lf
    rw [hrest, count_cons_self] at hone
    exact count_eq_zero.mp (by omega)

theorem Kept.of_removed (h : Kept api proxy list) (hfree : Removable api proxy list lf)
    {list' : FriendList F A} (hfriend : ∀ lf', lf' ≠ lf → list'.friend lf' = list.friend lf')
    (hfriends : list'.friends = list.friends.erase lf) (huri : ∀ uri, list'.underUri uri
      = (list.underUri uri).drop (((list.friend lf).uris api proxy).count uri))
    (hkey : ∀ key, list'.underKey key
      = (list.underKey key).drop ((list.friend lf).keys.count key)) : Kept api proxy list' := by
  have hne : ∀ lf' ∈ list.friends.erase lf, lf' ≠ lf := by
    rintro lf' hmem rfl
    exact List.Nodup.not_mem_erase h.nodup hmem
  constructor
  · rw [hfriends]
    exact h.nodup.erase lf
  · intro lf' hmem
    rw [hfriends] at hmem
    rw [hfriend lf' (hne lf' hmem)]
    exact h.inList lf' (mem_of_mem_erase hmem)
  · rw [hfriends, show list'.underUri = _ from funext huri]
    refine (h.uris.leave h.nodup hfree.first).congr (fun lf' hmem uri => ?_)
    rw [hfriend lf' (hne lf' hmem)]
  · rw [hfriends, show list'.underKey = _ from funext hkey]
    refine (h.keys.leave h.nodup (hfree.leadsKey h.once)).congr (fun lf' hmem key => ?_)
    rw [hfriend lf' (hne lf' hmem)]
  · intro key lf'
    rw [hkey]
    exact Nat.le_trans ((drop_sublist _ _).count_le lf') (h.once key lf')

theorem Kept.removeFriend (h : Kept api proxy list)
    (hremovable : lf ∈ list.friends → Removable api proxy list lf) :
    Kept api proxy (list.removeFriend api lf proxy).2 := by
  unfold FriendList.removeFriend
  split
  · next hmem =>
    have hfree := hremovable hmem
    have hkey := removeKey_spec (list.eraseLink lf) lf
    have hself : ((list.eraseLink lf).removeKey lf).friend lf = list.friend lf := by
      rw [hkey.1]
      rfl
    have hnumbers := removeNumbers_spec ((list.eraseLink lf).removeKey lf) lf proxy (by
      intro number hnumber uri huri
      rw [hkey.2.2.1]
      rw [hself] at hnumber
      exact hfree.keepsNumbers number hnumber uri huri)
    have hfresh : ((((list.eraseLink lf).removeKey lf).removeNumbers lf proxy).friend lf).Fresh
      api := by
      rw [hnumbers.1.friend, hself]
      exact hfree.fresh
    have haddresses := removeAddresses_spec _ lf hfresh
    refine h.of_removed hfree ?_ ?_ ?_ ?_
    · intro lf' hne
      show (update _ lf _) lf' = _
      rw [update_of_ne hne, haddresses.1.friend, cacheAddresses_friend,
        update_of_ne hne, hnumbers.1.friend, hkey.1]
      rfl
    · exact haddresses.1.friends.trans (hnumbers.1.friends.trans hkey.2.1)
    · intro uri
      show (removeAddresses api _ lf).underUri uri = _
      rw [haddresses.2, hnumbers.2, hnumbers.1.friend, hself, hkey.2.2.1, drop_drop]
      unfold Friend.uris
      rw [count_append]
      rfl
    · intro key
      show (removeAddresses api _ lf).underKey key = _
      unfold underKey
      rw [haddresses.1.friendsMap]
      refine (congrArg (values · key) hnumbers.1.friendsMap).trans ?_
      exact hkey.2.2.2 key
  · exact h

end FriendList

end GrooveIp.Friends
