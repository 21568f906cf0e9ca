import GrooveIp.Lib.MultiMap
import Mathlib.Logic.Function.Basic

/-!
# Friend lists

`friendlist.c` and `friend.c`: a friend list has its friends in a list, and in two multimaps under
their keys and their uris; those that the server does not know yet are in a fourth container. Each
container holds references of its own. A friend is a vCard that remembers the addresses it was last
asked for.
-/

namespace GrooveIp.Friends

open Lib

/-- A C string: the characters before the terminator. -/
abbrev Text := List Char

/-- What a friend list uses of addresses: `linphone_address_new`, `linphone_address_clean`,
`linphone_address_as_string_uri_only`, and the name for a new vCard. A printed uri is read as an
address with that uri. -/
structure AddressApi (A : Type) where
  parse : Text → Option A
  clean : A → A
  uriOnly : A → Text
  name : A → Option Text
  parse_uriOnly : ∀ address, (parse (uriOnly address)).map uriOnly = some (uriOnly address)

/-- What a friend list uses of the default proxy: `linphone_proxy_config_normalize_phone_number`,
and its domain. -/
structure ProxyConfig where
  normalize : Text → Option Text
  domain : Text

/-- The uri of a number (`friend.c:1775`). -/
def ProxyConfig.numberUri (proxy : ProxyConfig) (number : Text) : Text :=
  "sip:".toList ++ number ++ "@".toList ++ proxy.domain ++ ";user=phone".toList

/-- A number without `tel:` (`friend.c:1772`). -/
def stripTel (number : Text) : Text :=
  if "tel:".toList.isPrefixOf number then number.drop 4 else number

/-- A vCard, as far as addresses and phone numbers go: the values of its IMPP fields, the addresses
that were read from them, and the values of its TEL fields. -/
structure Vcard (A : Type) where
  impps : List Text := []
  sipAddressesCache : List A := []
  phoneNumbers : List Text := []

variable {A : Type} (api : AddressApi A)

/-- The addresses that the IMPP fields give. -/
def Vcard.readAddresses (vcard : Vcard A) : List A := vcard.impps.filterMap api.parse

/-- `linphone_vcard_get_sip_addresses` (`vcard.cc:296`): what it returns, -/
def Vcard.getSipAddresses (vcard : Vcard A) : List A :=
  match vcard.sipAddressesCache with
  | [] => vcard.readAddresses api
  | cache => cache

/-- and what it leaves. -/
def Vcard.cached (vcard : Vcard A) : Vcard A :=
  { vcard with sipAddressesCache := vcard.getSipAddresses api }

/-- `linphone_vcard_add_sip_address` (`vcard.cc:263`). -/
def Vcard.addSipAddress (vcard : Vcard A) (sipAddress : Text) : Vcard A :=
  { vcard with impps := vcard.impps ++ [sipAddress] }

/-- `linphone_vcard_remove_sip_address` (`vcard.cc:271`). -/
def Vcard.removeSipAddress (vcard : Vcard A) (sipAddress : Text) : Vcard A :=
  { vcard with impps := vcard.impps.erase sipAddress }

/-- `linphone_vcard_edit_main_sip_address` (`vcard.cc:283`). -/
def Vcard.editMainSipAddress (vcard : Vcard A) (sipAddress : Text) : Vcard A :=
  { vcard with impps := sipAddress :: vcard.impps.tail }

/-- `linphone_vcard_add_phone_number` (`vcard.cc:309`). -/
def Vcard.addPhoneNumber (vcard : Vcard A) (phone : Text) : Vcard A :=
  { vcard with phoneNumbers := vcard.phoneNumbers ++ [phone] }

/-- `linphone_vcard_remove_phone_number` (`vcard.cc:317`). -/
def Vcard.removePhoneNumber (vcard : Vcard A) (phone : Text) : Vcard A :=
  { vcard with phoneNumbers := vcard.phoneNumbers.erase phone }

/-- A friend. `inList` says that its `friend_list` is the list. -/
structure Friend (A : Type) where
  vcard : Option (Vcard A) := none
  refkey : Option Text := none
  inList : Bool := false

/-- `linphone_friend_create_vcard` (`friend.c:1152`); the full name is of no use here. -/
def Friend.createVcard (friend : Friend A) (name : Option Text) : Friend A :=
  match name, friend.vcard with
  | some _, none => { friend with vcard := some {} }
  | _, _ => friend

/-- `linphone_friend_get_phone_numbers` (`friend.c:416`). -/
def Friend.getPhoneNumbers (friend : Friend A) : List Text :=
  match friend.vcard with
  | none => []
  | some vcard => vcard.phoneNumbers

/-- `linphone_friend_get_addresses` (`friend.c:364`): what it returns. -/
def Friend.getAddresses (friend : Friend A) : List A :=
  match friend.vcard with
  | none => []
  | some vcard => vcard.getSipAddresses api

/-- A change of the vCard, where there is one. -/
def Friend.withVcard (friend : Friend A) (change : Vcard A → Vcard A) : Friend A :=
  { friend with vcard := friend.vcard.map change }

/-- A friend list, the friends that there are, and how many references to each friend the list has
taken and not given back. -/
structure FriendList (F A : Type) where
  friend : F → Friend A
  friends : List F := []
  friendsMap : MultiMap Text F := []
  friendsMapUri : MultiMap Text F := []
  dirtyFriendsToUpdate : List F := []
  references : F → Int := fun _ => 0

/-- `LinphoneFriendListStatus`. -/
inductive FriendListStatus where
  | ok
  | nonExistentFriend
  | invalidFriend
  deriving DecidableEq, Repr

namespace FriendList

variable {F : Type} [DecidableEq F] (list : FriendList F A) (lf : F)

/-! ## Steps of the operations -/

variable (uri : Text)

/-- `linphone_friend_list_find_friend_by_uri` (`friendlist.c:791`). -/
def findFriendByUri : Option F := list.friendsMapUri.find uri

/-- `linphone_friend_list_find_friend_by_ref_key` (`friendlist.c:803`). -/
def findFriendByRefKey (refKey : Text) : Option F := list.friendsMap.find refKey

/-- `linphone_friend_ref`. -/
def ref : FriendList F A :=
  { list with references := Function.update list.references lf (list.references lf + 1) }

/-- `linphone_friend_unref`. -/
def unref : FriendList F A :=
  { list with references := Function.update list.references lf (list.references lf - 1) }

/-- The friend changes. -/
def setFriend (friend : Friend A) : FriendList F A :=
  { list with friend := Function.update list.friend lf friend }

/-- The friend is asked for its addresses. -/
def cacheAddresses : FriendList F A :=
  list.setFriend lf ((list.friend lf).withVcard (·.cached api))

/-- A reference to the friend goes into `friends_map_uri`. -/
def insertUri : FriendList F A :=
  let list := list.ref lf
  { list with friendsMapUri := list.friendsMapUri.insert uri lf }

/-- What is found under the uri leaves `friends_map_uri`, and its reference is given back. -/
def eraseUri : FriendList F A :=
  match list.friendsMapUri.find uri with
  | none => list
  | some found =>
    let list := list.unref found
    { list with friendsMapUri := list.friendsMapUri.erase uri }

/-- A reference to the friend goes into `friends_map`. -/
def insertKey (key : Text) : FriendList F A :=
  let list := list.ref lf
  { list with friendsMap := list.friendsMap.insert key lf }

/-- What is found under the key leaves `friends_map`, and its reference is given back. -/
def eraseKey (key : Text) : FriendList F A :=
  match list.friendsMap.find key with
  | none => list
  | some found =>
    let list := list.unref found
    { list with friendsMap := list.friendsMap.erase key }

/-- A reference to the friend goes in front of `dirty_friends_to_update`. -/
def prependDirty : FriendList F A :=
  let list := list.ref lf
  { list with dirtyFriendsToUpdate := lf :: list.dirtyFriendsToUpdate }

/-- What is found under the uri of a number that is not normalized goes (`friend.c:1777–1789`). -/
def forgetNumber (proxy : ProxyConfig) (number normalized : Text) : FriendList F A :=
  if normalized ≠ number then list.eraseUri (proxy.numberUri number) else list

/-- The friend goes under a uri that nobody is under (`friend.c:1791–1794`). -/
def insertMissing : FriendList F A :=
  match list.findFriendByUri uri with
  | none => list.insertUri lf uri
  | some _ => list

/-- `linphone_friend_phone_number_to_sip_uri` (`friend.c:1749`): the uri, and what becomes of the
list on the way to it. -/
def phoneNumberToSipUri (proxy : Option ProxyConfig) (phone : Text) :
    Option Text × FriendList F A :=
  match proxy with
  | none => (none, list)
  | some proxy =>
    match proxy.normalize (stripTel phone) with
    | none => (none, list)
    | some normalized =>
      let fullUri := proxy.numberUri normalized
      (some fullUri, (list.forgetNumber proxy (stripTel phone) normalized).insertMissing lf fullUri)

/-! ## The list -/

variable (proxy : Option ProxyConfig)

/-- One turn of the loop over phone numbers in `linphone_friend_list_import_friend`. -/
def importNumber (number : Text) : FriendList F A :=
  match list.phoneNumberToSipUri lf proxy number with
  | (none, list) => list
  | (some uri, list) => list.insertUri lf uri

/-- One turn of the loop over addresses. -/
def importAddress (address : A) : FriendList F A := list.insertUri lf (api.uriOnly address)

/-- The friend goes into the list (`friendlist.c:561–563`). -/
def enterFriend : FriendList F A :=
  let list := list.setFriend lf { list.friend lf with inList := true }
  let list := list.ref lf
  { list with friends := lf :: list.friends }

/-- The friend goes under its key (`friendlist.c:564–567`). -/
def importKey : FriendList F A :=
  match (list.friend lf).refkey with
  | none => list
  | some refkey => list.insertKey lf refkey

/-- The friend goes under the uris of its numbers (`friendlist.c:569–580`), -/
def importNumbers : FriendList F A :=
  (list.friend lf).getPhoneNumbers.foldl (fun list number => list.importNumber lf proxy number) list

/-- and of its addresses (`friendlist.c:582–593`). -/
def importAddresses : FriendList F A :=
  ((list.friend lf).getAddresses api).foldl (fun list address => list.importAddress api lf address)
    (list.cacheAddresses api lf)

/-- `linphone_friend_list_import_friend` (`friendlist.c:552`). -/
def importFriend (synchronize : Bool) : FriendListStatus × FriendList F A :=
  if (list.friend lf).inList then (.invalidFriend, list)
  else
    let list := (((list.enterFriend lf).importKey lf).importNumbers lf proxy).importAddresses api lf
    (.ok, if synchronize then list.prependDirty lf else list)

/-- Whether `_linphone_friend_list_add_friend` finds the friend in the list (`friendlist.c:515`). -/
def present : Bool :=
  match (list.friend lf).refkey with
  | some refkey => (list.findFriendByRefKey refkey).isSome
  | none => decide (lf ∈ list.friends)

/-- `_linphone_friend_list_add_friend` (`friendlist.c:509`); what it saves and applies changes no
container. -/
def addFriend (synchronize : Bool) : FriendListStatus × FriendList F A :=
  if (list.friend lf).inList then (.invalidFriend, list)
  else
    let list := list.cacheAddresses api lf
    if list.present lf then (.invalidFriend, list) else list.importFriend api lf proxy synchronize

/-- One turn of the loop over phone numbers in `_linphone_friend_list_remove_friend`. -/
def removeNumber (number : Text) : FriendList F A :=
  match list.phoneNumberToSipUri lf proxy number with
  | (none, list) => list
  | (some uri, list) => list.eraseUri uri

/-- The link of the friend goes (`friendlist.c:636`). -/
def eraseLink : FriendList F A := { list with friends := list.friends.erase lf }

/-- What is under the key of the friend goes (`friendlist.c:637–646`), -/
def removeKey : FriendList F A :=
  match (list.friend lf).refkey with
  | none => list
  | some refkey => list.eraseKey refkey

/-- under the uris of its numbers (`friendlist.c:648–664`), -/
def removeNumbers : FriendList F A :=
  (list.friend lf).getPhoneNumbers.foldl (fun list number => list.removeNumber lf proxy number) list

/-- and of its addresses (`friendlist.c:666–683`). -/
def removeAddresses : FriendList F A :=
  ((list.friend lf).getAddresses api).foldl (fun list address => list.eraseUri (api.uriOnly address))
    (list.cacheAddresses api lf)

/-- The friend is given back (`friendlist.c:685–686`). -/
def releaseFriend : FriendList F A :=
  (list.setFriend lf { list.friend lf with inList := false }).unref lf

/-- `_linphone_friend_list_remove_friend` (`friendlist.c:608`). -/
def removeFriend : FriendListStatus × FriendList F A :=
  if lf ∈ list.friends then
    (.ok, ((((list.eraseLink lf).removeKey lf).removeNumbers lf proxy).removeAddresses api
      lf).releaseFriend lf)
  else (.nonExistentFriend, list)

/-- `carddav_updated` (`friendlist.c:740`), with what `linphone_carddav_vcards_pulled`
(`carddav.c:139–151`) gives to the new friend before. -/
def cardDavUpdated (lfNew lfOld : F) (vcard : Vcard A) : FriendList F A :=
  let list := list.setFriend lfNew
    { vcard := some vcard, refkey := (list.friend lfOld).refkey,
      inList := (list.friend lfOld).inList }
  let list :=
    if lfOld ∈ list.friends then
      let list := list.ref lfNew
      { list with friends := list.friends.replace lfOld lfNew }
    else list
  list.unref lfOld

/-- `linphone_friend_list_update_dirty_friends` (`friendlist.c:700`). -/
def updateDirtyFriends : FriendList F A :=
  { list.dirtyFriendsToUpdate.foldl unref list with dirtyFriendsToUpdate := [] }

/-! ## A friend -/

/-- What is under the main address of a friend of the list goes (`friend.c:307–316`). -/
def eraseMainAddress : FriendList F A :=
  let mainAddress := ((list.friend lf).getAddresses api).head?
  let list := list.cacheAddresses api lf
  match mainAddress with
  | some mainAddress =>
    if (list.friend lf).inList then list.eraseUri (api.uriOnly mainAddress) else list
  | none => list

/-- `linphone_friend_set_address` (`friend.c:304`). -/
def setAddress (addr : A) : FriendList F A :=
  let fr := api.clean addr
  let list := list.eraseMainAddress api lf
  let address := api.uriOnly fr
  let list := if (list.friend lf).inList then list.insertUri lf address else list
  list.setFriend lf
    (((list.friend lf).createVcard (api.name fr)).withVcard (·.editMainSipAddress address))

/-- `linphone_friend_add_address` (`friend.c:340`). -/
def addAddress (addr : A) : FriendList F A :=
  let uri := api.uriOnly (api.clean addr)
  let list := if (list.friend lf).inList then list.insertUri lf uri else list
  list.setFriend lf ((list.friend lf).withVcard (·.addSipAddress uri))

/-- `linphone_friend_remove_address` (`friend.c:376`). -/
def removeAddress (addr : A) : FriendList F A :=
  match (list.friend lf).vcard with
  | none => list
  | some _ =>
    let address := api.uriOnly addr
    let list := if (list.friend lf).inList then list.eraseUri address else list
    list.setFriend lf ((list.friend lf).withVcard (·.removeSipAddress address))

/-- `linphone_friend_add_phone_number` (`friend.c:397`). -/
def addPhoneNumber (phone : Text) : FriendList F A :=
  let list := if (list.friend lf).inList then list.importNumber lf proxy phone else list
  list.setFriend lf (((list.friend lf).createVcard (some phone)).withVcard (·.addPhoneNumber phone))

/-- `linphone_friend_remove_phone_number` (`friend.c:425`). -/
def removePhoneNumber (phone : Text) : FriendList F A :=
  match (list.friend lf).vcard with
  | none => list
  | some _ =>
    let list := if (list.friend lf).inList then list.removeNumber lf proxy phone else list
    list.setFriend lf ((list.friend lf).withVcard (·.removePhoneNumber phone))

/-- `linphone_friend_set_ref_key` (`friend.c:931`). -/
def setRefKey (key : Option Text) : FriendList F A :=
  list.setFriend lf { list.friend lf with refkey := key }

/-- `linphone_friend_done` (`friend.c:842`) of a friend whose vCard has changed. -/
def done : FriendList F A :=
  match (list.friend lf).vcard with
  | none => list
  | some _ =>
    let list := list.setFriend lf
      ((list.friend lf).withVcard fun vcard => { vcard with sipAddressesCache := [] })
    if (list.friend lf).inList then
      let list := list.ref lf
      { list with dirtyFriendsToUpdate := list.dirtyFriendsToUpdate ++ [lf] }
    else list

end FriendList

/-- What happens to a friend list. Its friends are asked for their addresses when they are saved,
and by the application. -/
inductive Event (F A : Type) where
  | importFriend (lf : F) (synchronize : Bool)
  | addFriend (lf : F) (synchronize : Bool)
  | removeFriend (lf : F)
  | setAddress (lf : F) (addr : A)
  | addAddress (lf : F) (addr : A)
  | removeAddress (lf : F) (addr : A)
  | addPhoneNumber (lf : F) (phone : Text)
  | removePhoneNumber (lf : F) (phone : Text)
  | setRefKey (lf : F) (key : Option Text)
  | cardDavUpdated (lfNew lfOld : F) (vcard : Vcard A)
  | getAddresses (lf : F)
  | done (lf : F)
  | updateDirtyFriends

/-- The list after an event. -/
def FriendList.step {F : Type} [DecidableEq F] (api : AddressApi A) (proxy : Option ProxyConfig)
    (list : FriendList F A) : Event F A → FriendList F A
  | .importFriend lf synchronize => (list.importFriend api lf proxy synchronize).2
  | .addFriend lf synchronize => (list.addFriend api lf proxy synchronize).2
  | .removeFriend lf => (list.removeFriend api lf proxy).2
  | .setAddress lf addr => list.setAddress api lf addr
  | .addAddress lf addr => list.addAddress api lf addr
  | .removeAddress lf addr => list.removeAddress api lf addr
  | .addPhoneNumber lf phone => list.addPhoneNumber lf proxy phone
  | .removePhoneNumber lf phone => list.removePhoneNumber lf proxy phone
  | .setRefKey lf key => list.setRefKey lf key
  | .cardDavUpdated lfNew lfOld vcard => list.cardDavUpdated lfNew lfOld vcard
  | .getAddresses lf => list.cacheAddresses api lf
  | .done lf => list.done lf
  | .updateDirtyFriends => list.updateDirtyFriends

end GrooveIp.Friends
