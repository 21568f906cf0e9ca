import GrooveIp.Friends.Edits

/-!
# Lookups that agree with the list

In every run whose steps find the entries of the friend that they are about, and read its addresses
as they are, the lookups of a friend list agree with the friends that are in it, and its references
with what its containers point to.
-/

namespace GrooveIp.Friends

open Lib List

namespace FriendList

variable {F A : Type} [DecidableEq F] (api : AddressApi A) (proxy : Option ProxyConfig)
  (list : FriendList F A)

/-- The lookups find a friend of the list that has what is asked for, whenever there is one, and the
references are those that the containers hold. -/
structure Agrees : Prop where
  byUri : ∀ uri lf, list.findFriendByUri uri = some lf →
    lf ∈ list.friends ∧ uri ∈ (list.friend lf).uris api proxy
  byUri_none : ∀ uri, list.findFriendByUri uri = none →
    ∀ lf ∈ list.friends, uri ∉ (list.friend lf).uris api proxy
  byRefKey : ∀ key lf, list.findFriendByRefKey key = some lf →
    lf ∈ list.friends ∧ (list.friend lf).refkey = some key
  byRefKey_none : ∀ key, list.findFriendByRefKey key = none →
    ∀ lf ∈ list.friends, (list.friend lf).refkey ≠ some key
  references : Balanced list

/-- The event takes away entries of the friend only, gives none to a friend outside the list,
changes no key, and reads the addresses as they are. -/
def Careful : Event F A → Prop
  | .importFriend lf _ => (list.friend lf).inList = false → Importable api proxy list lf
  | .addFriend lf _ =>
    (list.friend lf).inList = false → list.present lf = false → Importable api proxy list lf
  | .removeFriend lf => lf ∈ list.friends → Removable api proxy list lf
  | .setAddress lf addr => (list.friend lf).inList = true → Settable api proxy list lf addr
  | .addAddress lf _ =>
    (list.friend lf).inList = true → lf ∈ list.friends ∧ (list.friend lf).vcard ≠ none
  | .removeAddress lf addr =>
    (list.friend lf).inList = true → ∀ vcard, (list.friend lf).vcard = some vcard →
      list.underUri (api.uriOnly addr) ≠ [] →
        api.uriOnly addr ∈ vcard.impps ∧ Own api proxy list lf (api.uriOnly addr)
  | .addPhoneNumber lf phone =>
    (list.friend lf).inList = true → list.KeepsNumbers proxy [phone] ∧
      ((sipUri proxy phone).isSome → lf ∈ list.friends)
  | .removePhoneNumber lf phone =>
    (list.friend lf).inList = true → ∀ vcard, (list.friend lf).vcard = some vcard →
      list.KeepsNumbers proxy [phone] ∧ ∀ uri, sipUri proxy phone = some uri →
        list.underUri uri ≠ [] → phone ∈ vcard.phoneNumbers ∧ Own api proxy list lf uri
  | .setRefKey lf key => lf ∈ list.friends → key = (list.friend lf).refkey
  | .cardDavUpdated _ lfOld vcard =>
    (list.friend lfOld).refkey = none ∧ (list.friend lfOld).uris api proxy = [] ∧
      ({ vcard := some vcard } : Friend A).uris api proxy = []
  | .getAddresses _ => True
  | .done _ => True
  | .updateDirtyFriends => True

variable {api proxy list}

theorem Kept.step (h : Kept api proxy list) {event : Event F A} (hpossible : list.Possible event)
    (hcareful : Careful api proxy list event) : Kept api proxy (list.step api proxy event) := by
  cases event with
  | importFriend lf synchronize => exact h.importFriend synchronize hcareful
  | addFriend lf synchronize => exact h.addFriend synchronize hcareful
  | removeFriend lf => exact h.removeFriend hcareful
  | setAddress lf addr => exact h.setAddress addr hcareful
  | addAddress lf addr => exact h.addAddress addr hcareful
  | removeAddress lf addr => exact h.removeAddress addr hcareful
  | addPhoneNumber lf phone => exact h.addPhoneNumber phone hcareful
  | removePhoneNumber lf phone => exact h.removePhoneNumber phone hcareful
  | setRefKey lf key => exact h.setRefKey key hcareful
  | cardDavUpdated lfNew lfOld vcard =>
    exact h.cardDavUpdated hpossible.1 hpossible.2 hcareful.1 hcareful.2.1 hcareful.2.2
  | getAddresses lf => exact h.cacheAddresses lf
  | done lf => exact h.done
  | updateDirtyFriends => exact h.updateDirtyFriends

theorem Kept.empty {friend : F → Friend A} : Kept api proxy { friend := friend } where
  nodup := nodup_nil
  inList lf hmem := by cases hmem
  uris := ⟨fun _ _ hmem => (not_mem_nil hmem).elim, fun _ hmem => (not_mem_nil hmem).elim⟩
  keys := ⟨fun _ _ hmem => (not_mem_nil hmem).elim, fun _ hmem => (not_mem_nil hmem).elim⟩
  once key lf := Nat.zero_le _

theorem Kept.agreesBalanced (h : Kept api proxy list) (hbalanced : Balanced list) :
    Agrees api proxy list where
  byUri uri lf hfound := by
    rw [findFriendByUri_eq] at hfound
    exact (h.uris.head? uri).1 lf hfound
  byUri_none uri hnone := by
    rw [findFriendByUri_eq] at hnone
    exact (h.uris.head? uri).2 hnone
  byRefKey key lf hfound := by
    rw [findFriendByRefKey_eq] at hfound
    have hkey := (h.keys.head? key).1 lf hfound
    exact ⟨hkey.1, by simpa [Friend.keys] using hkey.2⟩
  byRefKey_none key hnone lf hmem hkey := by
    rw [findFriendByRefKey_eq] at hnone
    refine (h.keys.head? key).2 hnone lf hmem ?_
    unfold Friend.keys
    rw [hkey]
    exact mem_singleton.mpr rfl
  references := hbalanced

/-! ## Runs -/

/-- The lists that careful events lead to, from an empty one and friends of no list. -/
inductive CarefullyReached (api : AddressApi A) (proxy : Option ProxyConfig) :
    FriendList F A → Prop where
  | start (friend : F → Friend A) : CarefullyReached api proxy { friend := friend }
  | step {list : FriendList F A} (event : Event F A) (reached : CarefullyReached api proxy list)
      (possible : list.Possible event) (careful : Careful api proxy list event) :
      CarefullyReached api proxy (list.step api proxy event)

/-- In every run of careful events the lookups agree with the list. -/
theorem CarefullyReached.agrees (h : CarefullyReached api proxy list) : Agrees api proxy list := by
  suffices hboth : Kept api proxy list ∧ Balanced list from hboth.1.agreesBalanced hboth.2
  induction h with
  | start friend => exact ⟨Kept.empty, fun lf => rfl⟩
  | step event _ hpossible hcareful ih =>
    exact ⟨ih.1.step hpossible hcareful, ih.2.step api proxy hpossible⟩

end FriendList

/-- Addresses that are their own uris. -/
def plainAddresses : AddressApi Text where
  parse text := some text
  clean address := address
  uriOnly address := address
  name address := some address
  parse_uriOnly _ := rfl

/-- Two friends with one address. -/
def sharing (_ : Bool) : Friend Text where
  vcard := some { impps := ["sip:home@example.org".toList] }

namespace FriendList

/-- The list after events. -/
def runEvents {F A : Type} [DecidableEq F] (api : AddressApi A) (proxy : Option ProxyConfig)
    (list : FriendList F A) (events : List (Event F A)) : FriendList F A :=
  events.foldl (step api proxy) list

theorem importable_sharing {list : FriendList Bool Text} {lf : Bool}
    (h : (list.friend lf).vcard = (sharing lf).vcard) : Importable plainAddresses none list lf := by
  have hnumbers : (list.friend lf).getPhoneNumbers = [] := by
    unfold Friend.getPhoneNumbers
    rw [h]
    rfl
  refine ⟨fun vcard hvcard => ?_, fun number hmem => ?_, fun number hmem => ?_⟩
  · rw [h] at hvcard
    cases hvcard
    rfl
  · rw [hnumbers] at hmem
    exact (not_mem_nil hmem).elim
  · rw [hnumbers] at hmem
    exact (not_mem_nil hmem).elim

theorem agrees_sharing : Agrees plainAddresses none
      (runEvents plainAddresses none { friend := sharing } [.importFriend false true,
        .importFriend true false, .removeFriend false]) := by
  have hstart : CarefullyReached plainAddresses none { friend := sharing } := .start sharing
  have hfirst := hstart.step (.importFriend false true) trivial (fun _ => importable_sharing rfl)
  have hsecond := hfirst.step (.importFriend true false) trivial (fun _ => importable_sharing rfl)
  refine CarefullyReached.agrees (hsecond.step (.removeFriend false) trivial (fun _ => ?_))
  refine ⟨fun vcard hvcard => ?_, fun number hmem => (not_mem_nil hmem).elim, ?_, ?_⟩
  · cases hvcard
    rfl
  · intro uri huri
    obtain rfl := mem_singleton.mp huri
    exact ⟨[true], by decide, by decide⟩
  · intro key hkey
    exact (not_mem_nil hkey).elim

/-- The second friend is removed and its entry stays in the place of the other's; a removed number
leaves an entry behind. -/
theorem runEvents_disagree :
    (let list := runEvents plainAddresses none { friend := sharing }
        [.importFriend false false, .importFriend true false, .removeFriend true]
     list.findFriendByUri "sip:home@example.org".toList = some true ∧ list.friends = [false] ∧
       ¬Agrees plainAddresses none list) ∧
    (let proxy : ProxyConfig := { normalize := some, domain := "example.org".toList }
     let list := runEvents plainAddresses proxy
        { friend := fun _ : Bool => { vcard := some { phoneNumbers := ["+33123".toList] } } }
        [.importFriend false false, .removeFriend false]
     list.findFriendByUri "sip:+33123@example.org;user=phone".toList = some false ∧
       list.friends = [] ∧ ¬Agrees plainAddresses proxy list) := by
  refine ⟨⟨by decide, by decide, fun hagrees => ?_⟩, ⟨by decide, by decide, fun hagrees => ?_⟩⟩
  · exact absurd (hagrees.byUri "sip:home@example.org".toList true (by decide)).1 (by decide)
  · exact absurd (hagrees.byUri "sip:+33123@example.org;user=phone".toList false (by decide)).1
      (by decide)

end FriendList

end GrooveIp.Friends
