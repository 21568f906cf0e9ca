import GrooveIp.Friends.FriendList

/-!
# The references of a friend list

Whatever happens to a list, the references that it has taken and not given back are those that its
containers hold, as long as an update of a contact is about a friend of the list.
-/

namespace GrooveIp.Friends

open Lib List

namespace FriendList

variable {F A : Type} [DecidableEq F] {list : FriendList F A}

/-- How many times the containers point to a friend. -/
def pointers (list : FriendList F A) (lf : F) : Nat :=
  list.friends.count lf + list.friendsMap.holds lf + list.friendsMapUri.holds lf
    + list.dirtyFriendsToUpdate.count lf

/-- The references are those that the containers hold, and some more. -/
def Balance (extra : F → Int) (list : FriendList F A) : Prop :=
  ∀ lf, list.references lf = list.pointers lf + extra lf

/-- The references are those that the containers hold. -/
abbrev Balanced (list : FriendList F A) : Prop := Balance (fun _ => 0) list

variable {extra : F → Int}

/-! ## Steps of the operations -/

theorem ref_references (list : FriendList F A) (lf lf' : F) :
    (list.ref lf).references lf' = list.references lf' + if lf = lf' then 1 else 0 := by
  unfold ref
  by_cases h : lf = lf'
  · subst h
    simp
  · simp [h, Function.update_of_ne (Ne.symm h)]

theorem unref_references (list : FriendList F A) (lf lf' : F) :
    (list.unref lf).references lf' = list.references lf' - if lf = lf' then 1 else 0 := by
  unfold unref
  by_cases h : lf = lf'
  · subst h
    simp
  · simp [h, Function.update_of_ne (Ne.symm h)]

theorem Balance.taken {lf : F} {list' : FriendList F A} (h : Balance extra list)
    (href : list'.references = (list.ref lf).references)
    (hpointers : ∀ lf', list'.pointers lf' = list.pointers lf' + if lf = lf' then 1 else 0) :
    Balance extra list' := by
  intro lf'
  rw [href, ref_references, h lf', hpointers lf']
  split
  · omega
  · omega

theorem Balance.given {lf : F} {list' : FriendList F A} (h : Balance extra list)
    (hunref : list'.references = (list.unref lf).references)
    (hpointers : ∀ lf', list.pointers lf' = list'.pointers lf' + if lf = lf' then 1 else 0) :
    Balance extra list' := by
  intro lf'
  rw [hunref, unref_references, h lf', hpointers lf']
  split
  · omega
  · omega

theorem Balance.insertUri (h : Balance extra list) (lf : F) (uri : Text) :
    Balance extra (list.insertUri lf uri) := by
  refine h.taken rfl (fun lf' => ?_)
  have hholds := MultiMap.holds_insert list.friendsMapUri uri lf lf'
  unfold pointers FriendList.insertUri ref
  dsimp only
  omega

theorem Balance.insertKey (h : Balance extra list) (lf : F) (key : Text) :
    Balance extra (list.insertKey lf key) := by
  refine h.taken rfl (fun lf' => ?_)
  have hholds := MultiMap.holds_insert list.friendsMap key lf lf'
  unfold pointers FriendList.insertKey ref
  dsimp only
  omega

theorem Balance.prependDirty (h : Balance extra list) (lf : F) :
    Balance extra (list.prependDirty lf) := by
  refine h.taken rfl (fun lf' => ?_)
  have hcount : (lf :: list.dirtyFriendsToUpdate).count lf'
      = list.dirtyFriendsToUpdate.count lf' + if lf = lf' then 1 else 0 := by
    simp [count_cons]
  unfold pointers FriendList.prependDirty ref
  dsimp only
  omega

theorem Balance.enterFriend (h : Balance extra list) (lf : F) :
    Balance extra (list.enterFriend lf) := by
  refine h.taken rfl (fun lf' => ?_)
  have hcount : (lf :: list.friends).count lf'
      = list.friends.count lf' + if lf = lf' then 1 else 0 := by
    simp [count_cons]
  unfold pointers FriendList.enterFriend ref setFriend
  dsimp only
  omega

theorem Balance.eraseUri (h : Balance extra list) (uri : Text) :
    Balance extra (list.eraseUri uri) := by
  unfold FriendList.eraseUri
  split
  · exact h
  · next found hfound =>
    refine h.given rfl (fun lf' => ?_)
    have hholds := MultiMap.holds_erase hfound lf'
    unfold pointers unref
    dsimp only
    omega

theorem Balance.eraseKey (h : Balance extra list) (key : Text) :
    Balance extra (list.eraseKey key) := by
  unfold FriendList.eraseKey
  split
  · exact h
  · next found hfound =>
    refine h.given rfl (fun lf' => ?_)
    have hholds := MultiMap.holds_erase hfound lf'
    unfold pointers unref
    dsimp only
    omega

theorem Balance.phoneNumberToSipUri (h : Balance extra list) (lf : F) (proxy : Option ProxyConfig)
    (phone : Text) : Balance extra (list.phoneNumberToSipUri lf proxy phone).2 := by
  unfold FriendList.phoneNumberToSipUri
  split
  · exact h
  · next proxy =>
    split
    · exact h
    · next normalized _ =>
      have hforget : Balance extra (list.forgetNumber proxy (stripTel phone) normalized) := by
        unfold forgetNumber
        split
        · exact h.eraseUri _
        · exact h
      show Balance extra (FriendList.insertMissing _ lf _)
      unfold insertMissing
      split
      · exact hforget.insertUri _ _
      · exact hforget

theorem Balance.importNumber (h : Balance extra list) (lf : F) (proxy : Option ProxyConfig)
    (number : Text) : Balance extra (list.importNumber lf proxy number) := by
  have hconverted := h.phoneNumberToSipUri lf proxy number
  unfold FriendList.importNumber
  split
  · next heq => rwa [heq] at hconverted
  · next heq =>
    rw [heq] at hconverted
    exact hconverted.insertUri _ _

theorem Balance.removeNumber (h : Balance extra list) (lf : F) (proxy : Option ProxyConfig)
    (number : Text) : Balance extra (list.removeNumber lf proxy number) := by
  have hconverted := h.phoneNumberToSipUri lf proxy number
  unfold FriendList.removeNumber
  split
  · next heq => rwa [heq] at hconverted
  · next heq =>
    rw [heq] at hconverted
    exact hconverted.eraseUri _

theorem Balance.foldl {α : Type} {step : FriendList F A → α → FriendList F A}
    (hstep : ∀ list a, Balance extra list → Balance extra (step list a)) (h : Balance extra list)
    (as : List α) : Balance extra (as.foldl step list) := by
  induction as generalizing list with
  | nil => exact h
  | cons a rest ih => exact ih (hstep list a h)

/-! ## Operations -/

theorem Balance.importKey (h : Balance extra list) (lf : F) :
    Balance extra (list.importKey lf) := by
  unfold FriendList.importKey
  split
  · exact h
  · exact h.insertKey _ _

theorem Balance.removeKey (h : Balance extra list) (lf : F) :
    Balance extra (list.removeKey lf) := by
  unfold FriendList.removeKey
  split
  · exact h
  · exact h.eraseKey _

theorem Balance.cacheAddresses (h : Balance extra list) (api : AddressApi A) (lf : F) :
    Balance extra (list.cacheAddresses api lf) := h

theorem Balance.importNumbers (h : Balance extra list) (lf : F) (proxy : Option ProxyConfig) :
    Balance extra (list.importNumbers lf proxy) :=
  Balance.foldl (fun _ number hlist => hlist.importNumber lf proxy number) h _

theorem Balance.removeNumbers (h : Balance extra list) (lf : F) (proxy : Option ProxyConfig) :
    Balance extra (list.removeNumbers lf proxy) :=
  Balance.foldl (fun _ number hlist => hlist.removeNumber lf proxy number) h _

theorem Balance.importAddresses (h : Balance extra list) (api : AddressApi A) (lf : F) :
    Balance extra (list.importAddresses api lf) :=
  Balance.foldl (fun _ address hlist => hlist.insertUri lf (api.uriOnly address))
    (h.cacheAddresses api lf) _

theorem Balance.removeAddresses (h : Balance extra list) (api : AddressApi A) (lf : F) :
    Balance extra (list.removeAddresses api lf) :=
  Balance.foldl (fun _ address hlist => hlist.eraseUri (api.uriOnly address))
    (h.cacheAddresses api lf) _

theorem Balance.importFriend (h : Balance extra list) (api : AddressApi A) (lf : F)
    (proxy : Option ProxyConfig) (synchronize : Bool) :
    Balance extra (list.importFriend api lf proxy synchronize).2 := by
  have himported :=
    (((h.enterFriend lf).importKey lf).importNumbers lf proxy).importAddresses api lf
  unfold FriendList.importFriend
  split
  · exact h
  · show Balance extra (if synchronize then FriendList.prependDirty _ lf else _)
    split
    · exact himported.prependDirty lf
    · exact himported

/-- The reference of a friend whose link is gone. -/
def owed (lf : F) : F → Int := fun lf' => if lf = lf' then 1 else 0

theorem Balanced.eraseLink (h : Balanced list) {lf : F} (hmem : lf ∈ list.friends) :
    Balance (owed lf) (list.eraseLink lf) := by
  intro lf'
  have hcount : list.friends.count lf'
      = (list.friends.erase lf).count lf' + if lf = lf' then 1 else 0 := by
    rw [(perm_cons_erase hmem).count_eq lf', count_cons]
    simp
  have hheld := h lf'
  unfold owed pointers FriendList.eraseLink at *
  dsimp only at *
  split at hcount
  · next heq =>
    rw [if_pos heq]
    omega
  · next heq =>
    rw [if_neg heq]
    omega

theorem Balance.releaseFriend {lf : F} (h : Balance (owed lf) list) :
    Balanced (list.releaseFriend lf) := by
  intro lf'
  have hheld := h lf'
  show (list.unref lf).references lf' = (list.pointers lf' : Int) + 0
  rw [unref_references, hheld]
  unfold owed
  omega

theorem Balanced.removeFriend (h : Balanced list) (api : AddressApi A) (lf : F)
    (proxy : Option ProxyConfig) : Balanced (list.removeFriend api lf proxy).2 := by
  unfold FriendList.removeFriend
  split
  · next hmem =>
    exact ((((h.eraseLink hmem).removeKey lf).removeNumbers lf proxy).removeAddresses api
      lf).releaseFriend
  · exact h

theorem Balance.addFriend (h : Balance extra list) (api : AddressApi A) (lf : F)
    (proxy : Option ProxyConfig) (synchronize : Bool) :
    Balance extra (list.addFriend api lf proxy synchronize).2 := by
  unfold FriendList.addFriend
  split
  · exact h
  · dsimp only
    split
    · exact h.cacheAddresses api lf
    · exact (h.cacheAddresses api lf).importFriend api lf proxy synchronize

theorem Balance.eraseMainAddress (h : Balance extra list) (api : AddressApi A) (lf : F) :
    Balance extra (list.eraseMainAddress api lf) := by
  unfold FriendList.eraseMainAddress
  dsimp only
  split
  · split
    · exact (h.cacheAddresses api lf).eraseUri _
    · exact h.cacheAddresses api lf
  · exact h.cacheAddresses api lf

theorem Balance.setAddress (h : Balance extra list) (api : AddressApi A) (lf : F) (addr : A) :
    Balance extra (list.setAddress api lf addr) := by
  have hmain := h.eraseMainAddress api lf
  unfold FriendList.setAddress
  generalize list.eraseMainAddress api lf = list' at hmain
  show Balance extra (if (list'.friend lf).inList then list'.insertUri lf _ else list')
  split
  · exact hmain.insertUri lf _
  · exact hmain

theorem Balance.addAddress (h : Balance extra list) (api : AddressApi A) (lf : F) (addr : A) :
    Balance extra (list.addAddress api lf addr) := by
  show Balance extra (if (list.friend lf).inList then list.insertUri lf _ else list)
  split
  · exact h.insertUri lf _
  · exact h

theorem Balance.removeAddress (h : Balance extra list) (api : AddressApi A) (lf : F) (addr : A) :
    Balance extra (list.removeAddress api lf addr) := by
  unfold FriendList.removeAddress
  split
  · exact h
  · show Balance extra (if (list.friend lf).inList then list.eraseUri _ else list)
    split
    · exact h.eraseUri _
    · exact h

theorem Balance.addPhoneNumber (h : Balance extra list) (lf : F) (proxy : Option ProxyConfig)
    (phone : Text) : Balance extra (list.addPhoneNumber lf proxy phone) := by
  show Balance extra (if (list.friend lf).inList then list.importNumber lf proxy phone else list)
  split
  · exact h.importNumber lf proxy phone
  · exact h

theorem Balance.removePhoneNumber (h : Balance extra list) (lf : F) (proxy : Option ProxyConfig)
    (phone : Text) : Balance extra (list.removePhoneNumber lf proxy phone) := by
  unfold FriendList.removePhoneNumber
  split
  · exact h
  · show Balance extra (if (list.friend lf).inList then list.removeNumber lf proxy phone else list)
    split
    · exact h.removeNumber lf proxy phone
    · exact h

theorem Balance.done (h : Balance extra list) (lf : F) : Balance extra (list.done lf) := by
  unfold FriendList.done
  split
  · exact h
  · dsimp only
    split
    · refine h.taken rfl (fun lf' => ?_)
      have hcount : (list.dirtyFriendsToUpdate ++ [lf]).count lf'
          = list.dirtyFriendsToUpdate.count lf' + if lf = lf' then 1 else 0 := by
        simp [count_append, count_singleton]
      unfold pointers ref setFriend
      dsimp only
      omega
    · exact h

/-- What an update does to the links. -/
theorem count_replace {friends : List F} {lfOld : F} (hmem : lfOld ∈ friends) (lfNew lf' : F) :
    (friends.replace lfOld lfNew).count lf' + (if lfOld = lf' then 1 else 0)
      = friends.count lf' + if lfNew = lf' then 1 else 0 := by
  induction friends with
  | nil => cases hmem
  | cons lf rest ih =>
    by_cases heq : lf = lfOld
    · subst heq
      simp only [replace_cons_self, count_cons, beq_iff_eq]
      omega
    · have hrest : lfOld ∈ rest := (mem_cons.mp hmem).resolve_left (Ne.symm heq)
      have hih := ih hrest
      have hne : (lfOld == lf) = false := beq_false_of_ne (Ne.symm heq)
      simp only [replace_cons, hne, count_cons]
      omega

theorem Balance.cardDavUpdated (h : Balance extra list) {lfOld : F} (hmem : lfOld ∈ list.friends)
    (lfNew : F) (vcard : Vcard A) : Balance extra (list.cardDavUpdated lfNew lfOld vcard) := by
  intro lf'
  have hcount := count_replace hmem lfNew lf'
  have hheld := h lf'
  unfold FriendList.cardDavUpdated
  rw [unref_references]
  dsimp only
  rw [if_pos (show lfOld ∈ (list.setFriend lfNew _).friends from hmem)]
  have href := ref_references list lfNew lf'
  show (list.ref lfNew).references lf' - _ = (((list.friends.replace lfOld lfNew).count lf'
    + list.friendsMap.holds lf' + list.friendsMapUri.holds lf'
    + list.dirtyFriendsToUpdate.count lf' : Nat) : Int) + extra lf'
  rw [href, hheld]
  unfold pointers
  split at hcount <;> split at hcount <;> simp_all <;> omega

theorem foldl_unref (dirty : List F) (list : FriendList F A) : dirty.foldl unref list
      = { list with references := fun lf => list.references lf - dirty.count lf } := by
  induction dirty generalizing list with
  | nil => simp
  | cons lf rest ih =>
    rw [foldl_cons, ih]
    have hreferences : (fun lf' => (list.unref lf).references lf' - rest.count lf')
        = fun lf' => list.references lf' - ((lf :: rest).count lf' : Nat) := by
      funext lf'
      rw [unref_references, count_cons]
      by_cases heq : lf = lf'
      · simp [heq]
        omega
      · simp [heq]
    rw [hreferences]
    rfl

theorem Balance.updateDirtyFriends (h : Balance extra list) :
    Balance extra list.updateDirtyFriends := by
  intro lf'
  have hheld := h lf'
  unfold FriendList.updateDirtyFriends
  rw [foldl_unref]
  unfold pointers at *
  simp only [count_nil]
  omega

/-! ## Runs -/

/-- The event can happen: a contact that is updated is in the list, and its new friend is not. -/
def Possible (list : FriendList F A) : Event F A → Prop
  | .cardDavUpdated lfNew lfOld _ => lfOld ∈ list.friends ∧ (list.friend lfNew).inList = false
  | _ => True

/-- An event gives back as many references as it takes away. -/
theorem Balanced.step (h : Balanced list) (api : AddressApi A) (proxy : Option ProxyConfig)
    {event : Event F A} (hpossible : list.Possible event) :
    Balanced (list.step api proxy event) := by
  cases event with
  | importFriend lf synchronize => exact h.importFriend api lf proxy synchronize
  | addFriend lf synchronize => exact h.addFriend api lf proxy synchronize
  | removeFriend lf => exact Balanced.removeFriend h api lf proxy
  | setAddress lf addr => exact h.setAddress api lf addr
  | addAddress lf addr => exact h.addAddress api lf addr
  | removeAddress lf addr => exact h.removeAddress api lf addr
  | addPhoneNumber lf phone => exact h.addPhoneNumber lf proxy phone
  | removePhoneNumber lf phone => exact h.removePhoneNumber lf proxy phone
  | setRefKey lf key => exact h
  | cardDavUpdated lfNew lfOld vcard => exact h.cardDavUpdated hpossible.1 lfNew vcard
  | getAddresses lf => exact h.cacheAddresses api lf
  | done lf => exact h.done lf
  | updateDirtyFriends => exact h.updateDirtyFriends

end FriendList

end GrooveIp.Friends
