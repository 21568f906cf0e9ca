import GrooveIp.Friends.Lookups

/-!
# Friends that change

The addresses and numbers of a friend of the list are changed in its vCard, and in the index of the
uris: what is found there first under a uri is taken for the entry of the friend. Where it is, and
the vCard is read as it is, whatever is found agrees with the friends of the list.
-/

namespace GrooveIp.Friends

open Lib List Function Friend FriendList

variable {F A : Type} [DecidableEq F] (api : AddressApi A) (proxy : Option ProxyConfig)

/-- The uri that a value of a vCard gives. -/
def uriOf (value : Text) : Option Text := (api.parse value).map api.uriOnly

theorem uriOf_uriOnly (address : A) :
    uriOf api (api.uriOnly address) = some (api.uriOnly address) :=
  api.parse_uriOnly address

theorem Vcard.addressUris_eq (vcard : Vcard A) :
    vcard.addressUris api = vcard.impps.filterMap (uriOf api) := by
  unfold Vcard.addressUris Vcard.readAddresses uriOf
  rw [map_filterMap]

namespace Friend

theorem createVcard_refkey (friend : Friend A) (name : Option Text) :
    (friend.createVcard name).refkey = friend.refkey := by
  unfold createVcard
  split
  · rfl
  · rfl

theorem createVcard_inList (friend : Friend A) (name : Option Text) :
    (friend.createVcard name).inList = friend.inList := by
  unfold createVcard
  split
  · rfl
  · rfl

variable {friend : Friend A}

theorem createVcard_of_some {name : Option Text} {vcard : Vcard A} (h : friend.vcard = some vcard) :
    friend.createVcard name = friend := by
  unfold createVcard
  split
  · next hnone =>
    rw [h] at hnone
    cases hnone
  · rfl

theorem uris_of_vcard (vcard : Vcard A) (h : friend.vcard = some vcard) : friend.uris api proxy
      = vcard.phoneNumbers.filterMap (sipUri proxy) ++ vcard.impps.filterMap (uriOf api) := by
  unfold uris phoneUris addressUris getPhoneNumbers
  rw [h, ← Vcard.addressUris_eq]

theorem uris_of_none (h : friend.vcard = none) : friend.uris api proxy = [] := by
  unfold uris phoneUris addressUris getPhoneNumbers
  rw [h]
  rfl

end Friend

namespace FriendList

variable {api proxy} {list : FriendList F A} {lf : F}

/-- What is first under the uri is the friend's, and either the friend keeps the uri or it is all
that is there of the friend. -/
def Own (api : AddressApi A) (proxy : Option ProxyConfig) (list : FriendList F A) (lf : F)
    (uri : Text) : Prop :=
  (list.underUri uri).head? = some lf ∧
    (1 < ((list.friend lf).uris api proxy).count uri ∨ (list.underUri uri).count lf = 1)

theorem Kept.covers_eraseUri (h : Kept api proxy list) {uri : Text}
    (hown : Own api proxy list lf uri) : Covers list.friends
      (update (fun lf' => (list.friend lf').uris api proxy) lf
        (((list.friend lf).uris api proxy).erase uri)) (list.eraseUri uri).underUri := by
  have htaken := h.uris.take hown.1 hown.2
  have hunder : (list.eraseUri uri).underUri
      = fun uri' => if uri = uri' then (list.underUri uri').tail else list.underUri uri' :=
    funext fun uri' => underUri_eraseUri _ _
  rw [hunder]
  exact htaken

theorem covers_insertUri {keys : F → List Text} (h : Covers list.friends keys list.underUri)
    (hlf : lf ∈ list.friends) (uri : Text) :
    Covers list.friends (update keys lf (keys lf ++ [uri]))
      (list.insertUri lf uri).underUri := by
  have hunder : (list.insertUri lf uri).underUri
      = fun uri' => list.underUri uri' ++ if uri = uri' then [lf] else [] :=
    funext fun uri' => underUri_insertUri _ _
  rw [hunder]
  exact h.give hlf uri

theorem Kept.setFriend_of_not_mem (h : Kept api proxy list) (hlf : lf ∉ list.friends)
    {friend : Friend A} (hin : friend.inList = (list.friend lf).inList) :
    Kept api proxy (list.setFriend lf friend) :=
  h.setFriend (fun hmem => absurd hmem hlf) hin (fun hmem => absurd hmem hlf)

theorem Kept.addAddress (h : Kept api proxy list) (addr : A)
    (hcareful : (list.friend lf).inList = true → lf ∈ list.friends ∧ (list.friend lf).vcard ≠
    none) : Kept api proxy (list.addAddress api lf addr) := by
  unfold FriendList.addAddress
  cases hin : (list.friend lf).inList with
  | false => exact h.setFriend_of_not_mem (h.not_mem hin) rfl
  | true =>
    obtain ⟨hlf, hsome⟩ := hcareful hin
    obtain ⟨vcard, hvcard⟩ := Option.ne_none_iff_exists'.mp hsome
    have hcovers := covers_insertUri h.uris hlf (api.uriOnly (api.clean addr))
    refine h.change _ rfl rfl rfl (fun _ => rfl) rfl hcovers (fun _ uri => ?_)
    rw [uris_of_vcard api proxy vcard hvcard, uris_of_vcard api proxy
      (vcard.addSipAddress (api.uriOnly (api.clean addr)))
      (show ((list.friend lf).vcard.map _) = _ by rw [hvcard]; rfl)]
    unfold Vcard.addSipAddress
    simp [uriOf_uriOnly, filterMap_append]

theorem count_filterMap_erase {values : List Text} {value uri : Text} {get : Text → Option Text}
    (hmem : value ∈ values) (hget : get value = some uri) (uri' : Text) :
    (values.filterMap get).count uri'
      = ((values.erase value).filterMap get).count uri' + if uri = uri' then 1 else 0 := by
  have hperm := (perm_cons_erase hmem).filterMap get
  rw [filterMap_cons_some hget] at hperm
  rw [hperm.count_eq, count_cons]
  simp

theorem Kept.removeAddress (h : Kept api proxy list) (addr : A)
    (hcareful : (list.friend lf).inList = true → ∀ vcard, (list.friend lf).vcard = some vcard →
      list.underUri (api.uriOnly addr) ≠ [] →
        api.uriOnly addr ∈ vcard.impps ∧ Own api proxy list lf (api.uriOnly addr)) :
    Kept api proxy (list.removeAddress api lf addr) := by
  unfold FriendList.removeAddress
  cases hvcard : (list.friend lf).vcard with
  | none => exact h
  | some vcard =>
    dsimp only
    have hafter : ((list.friend lf).withVcard (·.removeSipAddress (api.uriOnly addr))).vcard
        = some (vcard.removeSipAddress (api.uriOnly addr)) := by
      show (list.friend lf).vcard.map _ = _
      rw [hvcard]
      rfl
    cases hin : (list.friend lf).inList with
    | false => exact h.setFriend_of_not_mem (h.not_mem hin) rfl
    | true =>
      rw [if_pos rfl]
      by_cases hempty : list.underUri (api.uriOnly addr) = []
      · -- nobody has the address, the friend no more than others
        have hsame : list.eraseUri (api.uriOnly addr) = list := by
          unfold eraseUri
          rw [show list.friendsMapUri.find (api.uriOnly addr) = none by
            rw [MultiMap.find_eq_head?]
            exact List.head?_eq_none_iff.mpr hempty]
        rw [hsame]
        refine h.setFriend (fun _ => rfl) rfl (fun hmem uri => ?_)
        have hnone : api.uriOnly addr ∉ vcard.impps := by
          intro himpp
          refine (h.uris.head? (api.uriOnly addr)).2 (List.head?_eq_none_iff.mpr hempty) lf hmem ?_
          rw [uris_of_vcard api proxy vcard hvcard]
          exact mem_append_right _ (mem_filterMap.mpr ⟨_, himpp, uriOf_uriOnly api addr⟩)
        rw [uris_of_vcard api proxy _ hafter, uris_of_vcard api proxy vcard hvcard]
        unfold Vcard.removeSipAddress
        rw [erase_of_not_mem hnone]
      · obtain ⟨himpp, hown⟩ := hcareful hin vcard hvcard hempty
        have hsame : SameFriends list (list.eraseUri (api.uriOnly addr)) := sameFriends_eraseUri _
        refine h.change _ (by rw [← hsame.friend]; rfl) hsame.friends hsame.friendsMap
          (fun _ => by rw [hsame.friend]; rfl) (by rw [hsame.friend]; rfl) (h.covers_eraseUri hown)
          (fun _ uri => ?_)
        have hcount := count_filterMap_erase himpp (uriOf_uriOnly api addr) uri
        rw [hsame.friend, uris_of_vcard api proxy _ hafter,
          uris_of_vcard api proxy vcard hvcard]
        unfold Vcard.removeSipAddress
        rw [count_erase, count_append, count_append, hcount]
        by_cases heq : api.uriOnly addr = uri
        · simp [heq]
        · simp [heq]

/-! ## Numbers -/

theorem uris_addPhoneNumber (api : AddressApi A) (proxy : Option ProxyConfig) (friend : Friend A)
    (phone : Text) :
    ∃ vcard, ((friend.createVcard (some phone)).withVcard (·.addPhoneNumber phone)).vcard =
      some vcard ∧
      ∀ uri, (((friend.createVcard (some phone)).withVcard (·.addPhoneNumber phone)).uris api
          proxy).count uri = (friend.uris api proxy ++ (sipUri proxy phone).toList).count uri := by
  cases hvcard : friend.vcard with
  | none =>
    have hafter : ((friend.createVcard (some phone)).withVcard (·.addPhoneNumber phone)).vcard
        = some (({} : Vcard A).addPhoneNumber phone) := by
      unfold createVcard withVcard
      rw [hvcard]
      rfl
    refine ⟨_, hafter, fun uri => ?_⟩
    rw [uris_of_vcard api proxy _ hafter, uris_of_none api proxy hvcard]
    unfold Vcard.addPhoneNumber
    cases hphone : sipUri proxy phone <;> simp [hphone]
  | some vcard =>
    have hafter : ((friend.createVcard (some phone)).withVcard (·.addPhoneNumber phone)).vcard
        = some (vcard.addPhoneNumber phone) := by
      rw [createVcard_of_some hvcard]
      show friend.vcard.map _ = _
      rw [hvcard]
      rfl
    refine ⟨_, hafter, fun uri => ?_⟩
    rw [uris_of_vcard api proxy _ hafter, uris_of_vcard api proxy vcard hvcard]
    unfold Vcard.addPhoneNumber
    rw [filterMap_append, count_append, count_append, count_append, count_append]
    cases hphone : sipUri proxy phone with
    | none => simp [hphone]
    | some converted =>
      simp only [filterMap_cons_some hphone, filterMap_nil, Option.toList_some]
      omega

theorem Kept.addPhoneNumber (h : Kept api proxy list) (phone : Text)
    (hcareful : (list.friend lf).inList = true → list.KeepsNumbers proxy [phone] ∧
      ((sipUri proxy phone).isSome → lf ∈ list.friends)) :
    Kept api proxy (list.addPhoneNumber lf proxy phone) := by
  unfold FriendList.addPhoneNumber
  have hcount : ∀ friend : Friend A, ∀ uri,
      (((friend.createVcard (some phone)).withVcard (·.addPhoneNumber phone)).uris api proxy).count
        uri = (friend.uris api proxy ++ (sipUri proxy phone).toList).count uri := by
    intro friend
    obtain ⟨_, _, hcount⟩ := uris_addPhoneNumber api proxy friend phone
    exact hcount
  cases hin : (list.friend lf).inList with
  | false =>
    exact h.setFriend_of_not_mem (h.not_mem hin) (createVcard_inList _ _)
  | true =>
    obtain ⟨hkeeps, hmem⟩ := hcareful hin
    have hforgotten := hkeeps phone (mem_singleton.mpr rfl)
    have hsame : SameFriends list (list.importNumber lf proxy phone) :=
      sameFriends_importNumber proxy phone
    have hfriend : ((list.importNumber lf proxy phone).setFriend lf
        ((((list.importNumber lf proxy phone).friend lf).createVcard (some phone)).withVcard
          (·.addPhoneNumber phone))).friend = update list.friend lf
          (((list.friend lf).createVcard (some phone)).withVcard (·.addPhoneNumber phone)) := by
      rw [hsame.friend]
      exact congrArg (update · lf _) hsame.friend
    have hkey := createVcard_refkey (list.friend lf) (some phone)
    have hinList := createVcard_inList (list.friend lf) (some phone)
    by_cases hlf : lf ∈ list.friends
    · exact h.change _ hfriend hsame.friends hsame.friendsMap (fun _ => hkey) hinList
        (covers_importNumber proxy h.uris hlf hforgotten) (fun _ uri => hcount _ uri)
    · -- a number that gives no uri leaves no entry
      have hnone : sipUri proxy phone = none := by
        rw [← Option.not_isSome_iff_eq_none]
        exact fun hsome => hlf (hmem hsome)
      have hunder : (list.importNumber lf proxy phone).underUri = list.underUri := by
        funext uri
        rw [underUri_importNumber proxy lf hforgotten, hnone]
        simp
      have hcovers : Covers list.friends
          (update (fun lf' => (list.friend lf').uris api proxy) lf
            ((list.friend lf).uris api proxy)) (list.importNumber lf proxy phone).underUri := by
        rw [update_eq_self, hunder]
        exact h.uris
      exact h.change _ hfriend hsame.friends hsame.friendsMap (fun _ => hkey) hinList hcovers
        (fun hmem => absurd hmem hlf)

theorem Kept.removePhoneNumber (h : Kept api proxy list) (phone : Text)
    (hcareful : (list.friend lf).inList = true → ∀ vcard, (list.friend lf).vcard = some vcard →
      list.KeepsNumbers proxy [phone] ∧ ∀ uri, sipUri proxy phone = some uri →
        list.underUri uri ≠ [] → phone ∈ vcard.phoneNumbers ∧ Own api proxy list lf uri) :
    Kept api proxy (list.removePhoneNumber lf proxy phone) := by
  unfold FriendList.removePhoneNumber
  cases hvcard : (list.friend lf).vcard with
  | none => exact h
  | some vcard =>
    have hafter : ((list.friend lf).withVcard (·.removePhoneNumber phone)).vcard
        = some (vcard.removePhoneNumber phone) := by
      show (list.friend lf).vcard.map _ = _
      rw [hvcard]
      rfl
    cases hin : (list.friend lf).inList with
    | false => exact h.setFriend_of_not_mem (h.not_mem hin) rfl
    | true =>
      obtain ⟨hkeeps, hown⟩ := hcareful hin vcard hvcard
      have hunder := underUri_removeNumber proxy lf (hkeeps phone (mem_singleton.mpr rfl))
      have hsame : SameFriends list (list.removeNumber lf proxy phone) :=
        sameFriends_removeNumber proxy phone
      have hfriend : ((list.removeNumber lf proxy phone).setFriend lf
          (((list.removeNumber lf proxy phone).friend lf).withVcard
            (·.removePhoneNumber phone))).friend = update list.friend lf
            ((list.friend lf).withVcard (·.removePhoneNumber phone)) := by
        rw [hsame.friend]
        exact congrArg (update · lf _) hsame.friend
      by_cases hgone : ∃ uri, sipUri proxy phone = some uri ∧ list.underUri uri ≠ []
      · obtain ⟨uri, huri, hempty⟩ := hgone
        obtain ⟨hphone, hfirst⟩ := hown uri huri hempty
        have hcovers := h.covers_eraseUri hfirst
        have hsameUri : (list.removeNumber lf proxy phone).underUri =
          (list.eraseUri uri).underUri := by
          funext uri'
          rw [hunder, huri, underUri_eraseUri]
          simp
        rw [← hsameUri] at hcovers
        refine h.change _ hfriend hsame.friends hsame.friendsMap (fun _ => rfl) rfl hcovers
          (fun _ uri' => ?_)
        have hcount := count_filterMap_erase hphone huri uri'
        rw [uris_of_vcard api proxy _ hafter, uris_of_vcard api proxy vcard hvcard]
        unfold Vcard.removePhoneNumber
        rw [count_erase, count_append, count_append, hcount]
        by_cases heq : uri = uri'
        · simp [heq]
        · simp [heq]
      · -- nobody has the uri of the number
        have hnobody : ∀ uri, sipUri proxy phone = some uri → list.underUri uri = [] := by
          intro uri huri
          by_contra hempty
          exact hgone ⟨uri, huri, hempty⟩
        have hsameUri : (list.removeNumber lf proxy phone).underUri = list.underUri := by
          funext uri
          rw [hunder]
          split
          · next huri =>
            rw [hnobody uri huri]
            rfl
          · rfl
        have hcovers : Covers list.friends
            (update (fun lf' => (list.friend lf').uris api proxy) lf
              ((list.friend lf).uris api proxy)) (list.removeNumber lf proxy phone).underUri := by
          rw [update_eq_self, hsameUri]
          exact h.uris
        refine h.change _ hfriend hsame.friends hsame.friendsMap (fun _ => rfl) rfl hcovers
          (fun hmem uri' => ?_)
        have hnone : phone ∈ vcard.phoneNumbers → sipUri proxy phone = none := by
          intro hphone
          cases huri : sipUri proxy phone with
          | none => rfl
          | some uri =>
            refine absurd ?_
              ((h.uris.head? uri).2 (List.head?_eq_none_iff.mpr (hnobody uri huri)) lf hmem)
            rw [uris_of_vcard api proxy vcard hvcard]
            exact mem_append_left _ (mem_filterMap.mpr ⟨phone, hphone, huri⟩)
        rw [uris_of_vcard api proxy _ hafter, uris_of_vcard api proxy vcard hvcard]
        unfold Vcard.removePhoneNumber
        rw [count_append, count_append]
        congr 1
        by_cases hphone : phone ∈ vcard.phoneNumbers
        · have hperm := (perm_cons_erase hphone).filterMap (sipUri proxy)
          rw [filterMap_cons_none (hnone hphone)] at hperm
          exact (hperm.count_eq uri').symm
        · rw [erase_of_not_mem hphone]

/-! ## The main address -/

/-- The main address can be set: the vCard begins with it and its entry is the friend's, or there is
none, and without a vCard the address gives a name. -/
structure Settable (api : AddressApi A) (proxy : Option ProxyConfig) (list : FriendList F A)
    (lf : F) (addr : A) : Prop where
  mem : lf ∈ list.friends
  fresh : (list.friend lf).Fresh api
  named : (list.friend lf).vcard = none → api.name (api.clean addr) ≠ none
  own : ∀ vcard, (list.friend lf).vcard = some vcard → ∀ main,
    (vcard.readAddresses api).head? = some main →
      vcard.impps.head?.bind api.parse = some main ∧ Own api proxy list lf (api.uriOnly main)

theorem uris_editMainSipAddress (vcard : Vcard A) (addr : A) :
    (vcard.editMainSipAddress (api.uriOnly addr)).addressUris api
      = api.uriOnly addr :: (vcard.impps.tail.filterMap (uriOf api)) := by
  rw [Vcard.addressUris_eq]
  unfold Vcard.editMainSipAddress
  rw [filterMap_cons_some (uriOf_uriOnly api addr)]

theorem sameFriends_eraseMainAddress :
    SameFriends (list.cacheAddresses api lf) (list.eraseMainAddress api lf) := by
  unfold eraseMainAddress
  dsimp only
  split
  · split
    · exact sameFriends_eraseUri _
    · exact SameFriends.refl _
  · exact SameFriends.refl _

/-- The friend that `setAddress` leaves. -/
def addressed (api : AddressApi A) (friend : Friend A) (addr : A) : Friend A :=
  (((friend.withVcard (·.cached api)).createVcard (api.name addr)).withVcard
    (·.editMainSipAddress (api.uriOnly addr)))

theorem addressed_refkey (friend : Friend A) (addr : A) :
    (addressed api friend addr).refkey = friend.refkey :=
  createVcard_refkey _ _

theorem addressed_inList (friend : Friend A) (addr : A) :
    (addressed api friend addr).inList = friend.inList :=
  createVcard_inList _ _

theorem setAddress_friend (addr : A) : (list.setAddress api lf addr).friend
      = update list.friend lf (addressed api (list.friend lf) (api.clean addr)) := by
  have hsame : SameFriends (list.cacheAddresses api lf) (list.eraseMainAddress api lf) :=
    sameFriends_eraseMainAddress
  have hinserted : ∀ uri, (if ((list.eraseMainAddress api lf).friend lf).inList then
      (list.eraseMainAddress api lf).insertUri lf uri else list.eraseMainAddress api lf).friend
      = (list.cacheAddresses api lf).friend := by
    intro uri
    split
    · exact hsame.friend
    · exact hsame.friend
  unfold setAddress
  dsimp only
  unfold setFriend
  rw [hinserted, cacheAddresses_friend, update_self, update_idem]
  rfl

theorem eraseMainAddress_of_none (hmain : ((list.friend lf).getAddresses api).head? = none) :
    list.eraseMainAddress api lf = list.cacheAddresses api lf := by
  unfold eraseMainAddress
  rw [hmain]

theorem eraseMainAddress_of_some {main : A} (hin : (list.friend lf).inList = true)
    (hmain : ((list.friend lf).getAddresses api).head? = some main) :
    list.eraseMainAddress api lf = (list.cacheAddresses api lf).eraseUri (api.uriOnly main) := by
  have hcached : ((list.cacheAddresses api lf).friend lf).inList = true := by
    rw [cacheAddresses_friend, update_self]
    exact hin
  unfold eraseMainAddress
  rw [hmain]
  exact if_pos hcached

theorem setAddress_underUri (hin : (list.friend lf).inList = true) (addr : A) :
    (list.setAddress api lf addr).underUri
      = ((list.eraseMainAddress api lf).insertUri lf (api.uriOnly (api.clean addr))).underUri := by
  have hsame : SameFriends (list.cacheAddresses api lf) (list.eraseMainAddress api lf) :=
    sameFriends_eraseMainAddress
  have hin' : ((list.eraseMainAddress api lf).friend lf).inList = true := by
    rw [hsame.friend, cacheAddresses_friend, update_self]
    exact hin
  unfold setAddress
  dsimp only
  rw [if_pos hin']
  rfl

theorem setAddress_friends (api : AddressApi A) (list : FriendList F A) (lf : F) (addr : A) :
    (list.setAddress api lf addr).friends = list.friends ∧
      (list.setAddress api lf addr).friendsMap = list.friendsMap := by
  have hsame : SameFriends (list.cacheAddresses api lf) (list.eraseMainAddress api lf) :=
    sameFriends_eraseMainAddress
  unfold setAddress
  dsimp only
  split
  · exact ⟨hsame.friends, hsame.friendsMap⟩
  · exact ⟨hsame.friends, hsame.friendsMap⟩

theorem addressed_vcard (friend : Friend A) (addr : A)
    (hnamed : friend.vcard = none → api.name addr ≠ none) : (addressed api friend addr).vcard
      = some (((friend.vcard.map (Vcard.cached api)).getD {}).editMainSipAddress
        (api.uriOnly addr)) := by
  unfold addressed
  cases hvcard : friend.vcard with
  | none =>
    obtain ⟨name, hname⟩ := Option.ne_none_iff_exists'.mp (hnamed hvcard)
    unfold withVcard createVcard
    rw [hname, hvcard]
    rfl
  | some vcard =>
    have hcached : (friend.withVcard (·.cached api)).vcard = some (vcard.cached api) := by
      show friend.vcard.map _ = _
      rw [hvcard]
      rfl
    rw [createVcard_of_some hcached]
    show (friend.withVcard (·.cached api)).vcard.map _ = _
    rw [hcached]
    rfl

theorem addressUris_of_main {vcard : Vcard A} {main : A}
    (hmain : vcard.impps.head?.bind api.parse = some main) : vcard.impps.filterMap (uriOf api)
      = api.uriOnly main :: vcard.impps.tail.filterMap (uriOf api) := by
  cases himpps : vcard.impps with
  | nil =>
    rw [himpps] at hmain
    cases hmain
  | cons value rest =>
    have hparse : api.parse value = some main := by
      rw [himpps] at hmain
      exact hmain
    have hvalue : uriOf api value = some (api.uriOnly main) := by
      unfold uriOf
      rw [hparse]
      rfl
    rw [filterMap_cons_some hvalue, tail_cons]

theorem setAddress_underUri_of_out (hout : (list.friend lf).inList = false) (addr : A) :
    (list.setAddress api lf addr).underUri = list.underUri := by
  have hcached : ((list.cacheAddresses api lf).friend lf).inList = false := by
    rw [cacheAddresses_friend, update_self]
    exact hout
  have hmain : list.eraseMainAddress api lf = list.cacheAddresses api lf := by
    unfold eraseMainAddress
    dsimp only
    split
    · rw [if_neg (by rw [hcached]; exact Bool.false_ne_true)]
    · rfl
  unfold setAddress
  dsimp only
  rw [hmain, if_neg (by rw [hcached]; exact Bool.false_ne_true)]
  rfl

/-- The uris of a friend without its main address. -/
def withoutMain (api : AddressApi A) (proxy : Option ProxyConfig) (friend : Friend A) : List Text :=
  match (friend.getAddresses api).head? with
  | none => friend.uris api proxy
  | some main => (friend.uris api proxy).erase (api.uriOnly main)

theorem Settable.count_addressed {addr : A} (h : Settable api proxy list lf addr) (uri : Text) :
    ((addressed api (list.friend lf) (api.clean addr)).uris api proxy).count uri
      = (withoutMain api proxy (list.friend lf) ++ [api.uriOnly (api.clean addr)]).count uri := by
  have hafter := addressed_vcard (list.friend lf) (api.clean addr) h.named
  rw [uris_of_vcard api proxy _ hafter, ← Vcard.addressUris_eq, uris_editMainSipAddress]
  unfold withoutMain getAddresses
  cases hvcard : (list.friend lf).vcard with
  | none =>
    rw [uris_of_none api proxy hvcard]
    rfl
  | some vcard =>
    dsimp only
    rw [h.fresh vcard hvcard, uris_of_vcard api proxy vcard hvcard]
    show ((vcard.phoneNumbers.filterMap (sipUri proxy)) ++
      api.uriOnly (api.clean addr) :: vcard.impps.tail.filterMap (uriOf api)).count uri = _
    cases hmain : (vcard.readAddresses api).head? with
    | none =>
      -- no value of the vCard is an address, and so is none that is left
      have hnone : vcard.impps.filterMap (uriOf api) = [] := by
        rw [← Vcard.addressUris_eq]
        unfold Vcard.addressUris
        rw [List.head?_eq_none_iff.mp hmain]
        rfl
      have htail : vcard.impps.tail.filterMap (uriOf api) = [] := by
        have hsub := (tail_sublist vcard.impps).filterMap (uriOf api)
        rw [hnone] at hsub
        exact sublist_nil.mp hsub
      rw [hnone, htail]
      simp
    | some main =>
      obtain ⟨hhead, _⟩ := h.own vcard hvcard main hmain
      rw [addressUris_of_main hhead]
      simp only [count_append, count_erase, count_cons, count_nil]
      by_cases heq : api.uriOnly main = uri
      · simp [heq]
        omega
      · simp [heq]
        omega

theorem Kept.setAddress (h : Kept api proxy list) (addr : A)
    (hcareful : (list.friend lf).inList = true → Settable api proxy list lf addr) :
    Kept api proxy (list.setAddress api lf addr) := by
  obtain ⟨hfriends, hfriendsMap⟩ := setAddress_friends api list lf addr
  cases hin : (list.friend lf).inList with
  | false =>
    have hlf := h.not_mem hin
    have hcovers : Covers list.friends
        (update (fun lf' => (list.friend lf').uris api proxy) lf
          ((list.friend lf).uris api proxy)) (list.setAddress api lf addr).underUri := by
      rw [update_eq_self, setAddress_underUri_of_out hin]
      exact h.uris
    exact h.change _ (setAddress_friend addr) hfriends hfriendsMap
      (fun hmem => absurd hmem hlf) (addressed_inList _ _) hcovers (fun hmem => absurd hmem hlf)
  | true =>
    have hset := hcareful hin
    have herased : Covers list.friends
        (update (fun lf' => (list.friend lf').uris api proxy) lf
          (withoutMain api proxy (list.friend lf))) (list.eraseMainAddress api lf).underUri := by
      unfold withoutMain
      cases hmain : ((list.friend lf).getAddresses api).head? with
      | none =>
        rw [eraseMainAddress_of_none hmain, update_eq_self]
        exact h.uris
      | some main =>
        obtain ⟨vcard, hvcard, hread⟩ : ∃ vcard, (list.friend lf).vcard = some vcard ∧
            (vcard.readAddresses api).head? = some main := by
          unfold getAddresses at hmain
          cases hvcard : (list.friend lf).vcard with
          | none =>
            rw [hvcard] at hmain
            cases hmain
          | some vcard =>
            rw [hvcard] at hmain
            exact ⟨vcard, rfl, by rw [← hset.fresh vcard hvcard]; exact hmain⟩
        rw [eraseMainAddress_of_some hin hmain]
        have hunder : ((list.cacheAddresses api lf).eraseUri (api.uriOnly main)).underUri
            = (list.eraseUri (api.uriOnly main)).underUri := by
          funext uri
          rw [underUri_eraseUri, underUri_eraseUri]
          rfl
        rw [hunder]
        exact h.covers_eraseUri (hset.own vcard hvcard main hread).2
    have hcached : SameFriends (list.cacheAddresses api lf) (list.eraseMainAddress api lf) :=
      sameFriends_eraseMainAddress
    have hsame : (list.eraseMainAddress api lf).friends = list.friends := hcached.friends
    rw [← hsame] at herased
    have hinserted := covers_insertUri herased (hsame ▸ hset.mem) (api.uriOnly (api.clean addr))
    rw [hsame, update_idem, update_self, ← setAddress_underUri hin] at hinserted
    exact h.change _ (setAddress_friend addr) hfriends hfriendsMap
      (fun _ => addressed_refkey _ _) (addressed_inList _ _) hinserted
      (fun _ uri => hset.count_addressed uri)

theorem Kept.setRefKey (h : Kept api proxy list) (key : Option Text)
    (hcareful : lf ∈ list.friends → key = (list.friend lf).refkey) :
    Kept api proxy (list.setRefKey lf key) := by
  refine h.setFriend hcareful rfl (fun _ uri => ?_)
  rfl

theorem Kept.done (h : Kept api proxy list) : Kept api proxy (list.done lf) := by
  unfold FriendList.done
  cases hvcard : (list.friend lf).vcard with
  | none => exact h
  | some vcard =>
    dsimp only
    have hcleaned : Kept api proxy (list.setFriend lf
        ((list.friend lf).withVcard fun vcard => { vcard with sipAddressesCache := [] })) := by
      refine h.setFriend (fun _ => rfl) rfl (fun _ uri => ?_)
      rw [uris_congr api proxy (list.friend lf)
        (fun vcard => { vcard with sipAddressesCache := [] }) rfl (fun _ => rfl) (fun _ => rfl)]
    split
    · exact hcleaned.of_same ⟨rfl, rfl, rfl⟩ rfl
    · exact hcleaned

theorem Kept.updateDirtyFriends (h : Kept api proxy list) :
    Kept api proxy list.updateDirtyFriends := by
  unfold FriendList.updateDirtyFriends
  rw [foldl_unref]
  exact h.of_same ⟨rfl, rfl, rfl⟩ rfl

/-- A contact takes the place of one that has nothing to be found by, and has nothing itself. -/
theorem Kept.cardDavUpdated (h : Kept api proxy list) {lfNew lfOld : F} {vcard : Vcard A}
    (hmem : lfOld ∈ list.friends) (hnew : (list.friend lfNew).inList = false)
    (hkey : (list.friend lfOld).refkey = none) (hold : (list.friend lfOld).uris api proxy = [])
    (huris : ({ vcard := some vcard } : Friend A).uris api proxy = []) :
    Kept api proxy (list.cardDavUpdated lfNew lfOld vcard) := by
  have hlf := h.not_mem hnew
  have hne : lfNew ≠ lfOld := by
    rintro rfl
    exact hlf hmem
  have hlist : (list.cardDavUpdated lfNew lfOld vcard).friend = update list.friend lfNew
          { vcard := some vcard, refkey := none, inList := true } ∧
      (list.cardDavUpdated lfNew lfOld vcard).friends = list.friends.replace lfOld lfNew ∧
      (list.cardDavUpdated lfNew lfOld vcard).underUri = list.underUri ∧
      (list.cardDavUpdated lfNew lfOld vcard).underKey = list.underKey := by
    unfold FriendList.cardDavUpdated
    rw [hkey, h.inList lfOld hmem]
    dsimp only
    rw [if_pos (show lfOld ∈ (list.setFriend lfNew _).friends from hmem)]
    exact ⟨rfl, rfl, rfl, rfl⟩
  obtain ⟨hfriend, hfriends, huri, hkeys⟩ := hlist
  have hcount := fun lf' => count_replace hmem lfNew lf'
  have hin : ∀ lf', lf' ∈ list.friends.replace lfOld lfNew ↔
      lf' = lfNew ∨ (lf' ∈ list.friends ∧ lf' ≠ lfOld) := by
    intro lf'
    have hlf' := hcount lf'
    have hnodup := nodup_iff_count.mp h.nodup lf'
    rw [← count_pos_iff, ← count_pos_iff]
    by_cases heq : lf' = lfNew
    · subst heq
      simp [Ne.symm hne] at hlf'
      simp [hlf']
    · by_cases heq' : lf' = lfOld
      · subst heq'
        simp [hne] at hlf'
        refine iff_of_false (by omega) ?_
        simp [Ne.symm hne]
      · simp [Ne.symm heq, Ne.symm heq'] at hlf'
        simp [heq, heq', hlf']
  have hother : ∀ lf' ∈ list.friends, update list.friend lfNew
      { vcard := some vcard, refkey := none, inList := true } lf' = list.friend lf' := by
    rintro lf' hmem'
    exact update_of_ne (by rintro rfl; exact hlf hmem') _ _
  constructor
  · rw [hfriends, nodup_iff_count]
    intro lf'
    have hlf' := hcount lf'
    have hnodup := nodup_iff_count.mp h.nodup lf'
    have hzero := count_eq_zero.mpr hlf
    by_cases heq : lfNew = lf'
    · subst heq
      simp [Ne.symm hne] at hlf'
      omega
    · simp [heq] at hlf'
      omega
  · intro lf' hmem'
    rw [hfriends, hin] at hmem'
    rw [hfriend]
    rcases hmem' with rfl | ⟨hmem', _⟩
    · rw [update_self]
    · rw [hother lf' hmem']
      exact h.inList lf' hmem'
  · rw [hfriends, hfriend, huri]
    refine h.uris.transfer (fun lf' hmem' hsome => ⟨?_, ?_⟩) (fun lf' hmem' => ?_)
    · rw [hin]
      exact .inr ⟨hmem', by rintro rfl; exact hsome hold⟩
    · rw [hother lf' hmem']
    · rcases (hin lf').mp hmem' with rfl | ⟨hmem', _⟩
      · rw [update_self]
        exact .inl huris
      · exact .inr ⟨hmem', by rw [hother lf' hmem']⟩
  · rw [hfriends, hfriend, hkeys]
    refine h.keys.transfer (fun lf' hmem' hsome => ⟨?_, ?_⟩) (fun lf' hmem' => ?_)
    · rw [hin]
      refine .inr ⟨hmem', ?_⟩
      rintro rfl
      refine hsome ?_
      unfold Friend.keys
      rw [hkey]
      rfl
    · rw [hother lf' hmem']
    · rcases (hin lf').mp hmem' with rfl | ⟨hmem', _⟩
      · rw [update_self]
        exact .inl rfl
      · exact .inr ⟨hmem', by rw [hother lf' hmem']⟩
  · rw [hkeys]
    exact h.once

end FriendList

end GrooveIp.Friends
