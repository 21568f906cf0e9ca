import GrooveIp.Lib.CString

/-!
# Contact search

The search of `magic-search.cpp`: friends by their phone numbers and call logs by their addresses, a
fresh search, and the one that goes on from the cached results of a shorter filter. Numbers are
normalised, contacts of presence models parsed and lists sorted by functions that are parameters; the
results are merged and made unique as `std::list` does.
-/

namespace GrooveIp.Search

open GrooveIp.Lib

/-- A `std::string`. -/
abbrev Str := List Char

/-- What is read of a `LinphoneAddress`; `uri` is its `as_string_uri_only`, which starts with the
scheme. -/
structure Address where
  username : Option Str
  displayName : Option Str
  domain : Str
  uri : Str
  uri_ne : uri ≠ []
  deriving DecidableEq, Repr

/-- A phone number of a friend, with the contact of its presence model, if any. -/
structure PhoneNumber where
  number : Str
  contact : Option Str
  deriving DecidableEq, Repr

/-- What is read of a `LinphoneFriend`. -/
structure Friend where
  id : Nat
  address : Option Address
  phoneNumbers : List PhoneNumber
  presenceContact : Option Str
  deriving DecidableEq, Repr

/-- What is read of a `LinphoneCallLog`. -/
structure CallLog where
  incoming : Bool
  fromAddress : Option Address
  toAddress : Option Address
  deriving DecidableEq, Repr

/-- `SearchResult`. -/
structure SearchResult where
  weight : UInt32
  address : Option Address
  phoneNumber : Str
  lFriend : Option Friend
  deriving DecidableEq, Repr

/-- The settings of a `MagicSearch`, as its constructor leaves them. -/
structure Settings where
  minWeight : UInt32 := 0
  maxWeight : UInt32 := 1000
  searchLimit : Nat := 30
  limitedSearch : Bool := true
  delimiter : Str := ['+', '_', '-']
  useDelimiter : Bool := true

/-- What the core of a search gives: friends, call logs, the normalisation of the default proxy (if
there is one), the parser of addresses, and the domain of the default proxy. -/
structure Core where
  friends : List Friend
  callLogs : List CallLog
  normalizePhoneNumber : Option (Str → Option Str)
  createAddress : Str → Option Address
  proxyDomain : Option Str

variable (settings : Settings) (core : Core)

/-! ## Weights -/

/-- `tolower` on every character. -/
def lower (s : Str) : Str := s.map Char.toLower

/-- `MagicSearch::getWeight` (`magic-search.cpp:431`): the first occurrence counts, the more the
earlier it is. -/
def getWeight (stringWords filter : Str) : UInt32 :=
  match strstr (lower filter) (lower stringWords) with
  | none => settings.minWeight
  | some 0 => settings.maxWeight
  | some (w + 1) =>
    let isDelimiter := settings.useDelimiter &&
      settings.delimiter.contains (charAt (lower stringWords) w)
    settings.maxWeight - (if isDelimiter then 1 else UInt32.ofNat (w + 2))

/-- `MagicSearch::checkDomain` without a friend. -/
def checkDomain (address : Address) (withDomain : Str) : Bool :=
  let onlyOneDomain := !withDomain.isEmpty && withDomain != ['*']
  !onlyOneDomain || withDomain == address.domain

/-- `MagicSearch::searchInAddress` (`magic-search.cpp:416`). -/
def searchInAddress (address : Option Address) (filter withDomain : Str) : UInt32 :=
  match address with
  | none => settings.minWeight
  | some address =>
    if checkDomain address withDomain then
      settings.minWeight + (address.username.elim 0 (getWeight settings · filter)) +
        (address.displayName.elim 0 (getWeight settings · filter))
    else settings.minWeight

/-- A domain is the one asked for, or any is. -/
def domainMatches (withDomain domain : Str) : Bool := domain == withDomain || withDomain == ['*']

/-- The result of a phone number in `MagicSearch::searchInFriend` (`magic-search.cpp:375–405`). -/
def searchInNumber (lFriend : Friend) (filter withDomain : Str) (phone : PhoneNumber) :
    Option SearchResult :=
  let phoneNumber := (core.normalizePhoneNumber.bind (· phone.number)).getD phone.number
  let domainOk := withDomain.isEmpty ||
    phone.contact.any fun contact => (core.createAddress contact).any (domainMatches withDomain ·.domain)
  let weightNumber := getWeight settings phoneNumber filter +
    phone.contact.elim 0 (fun contact => getWeight settings contact filter * 2)
  if settings.minWeight < weightNumber + settings.minWeight then
    let domainOk := domainOk || lFriend.address.any (domainMatches withDomain ·.domain)
    if domainOk then
      some { weight := settings.minWeight + weightNumber, address := lFriend.address, phoneNumber
             lFriend := some lFriend }
    else none
  else none

/-- `MagicSearch::searchInFriend`: its other sources are compiled out. -/
def searchInFriend (lFriend : Friend) (filter withDomain : Str) : List SearchResult :=
  lFriend.phoneNumbers.filterMap (searchInNumber settings core lFriend filter withDomain)

/-! ## Lists of results -/

/-- `std::list::merge` of `other` into a list, by `SearchResult::operator<`: in front of each element
goes the run of `other` that is less. Neither needs to be sorted. -/
def merge : (list other : List SearchResult) → List SearchResult
  | [], other => other
  | a :: list, other =>
    other.takeWhile (·.weight < a.weight) ++ a :: merge list (other.dropWhile (·.weight < a.weight))

/-- `MagicSearch::addResultsToResultsList`. -/
def addResultsToResultsList (results srL : List SearchResult) : List SearchResult :=
  if results.isEmpty then srL else merge srL results

/-- `getAddressFromSearchResult`; it is not called without an address and a friend. -/
def getAddressFromSearchResult (sr : SearchResult) : Str :=
  match sr.address, sr.lFriend with
  | some address, _ => address.uri
  | none, some lFriend =>
    ((lFriend.presenceContact.bind core.createAddress).map Address.uri).getD []
  | none, none => []

/-- Two neighbours that `MagicSearch::uniqueItemsList` takes for one. -/
def sameItem (lsr rsr : SearchResult) : Bool :=
  let left := getAddressFromSearchResult core lsr
  let right := getAddressFromSearchResult core rsr
  (!left.isEmpty || !right.isEmpty) && left == right

/-- `std::list::unique` behind an element that is kept. -/
def uniqueAfter (kept : SearchResult) : List SearchResult → List SearchResult
  | [] => []
  | sr :: list =>
    if sameItem core kept sr then uniqueAfter kept list else sr :: uniqueAfter sr list

/-- `MagicSearch::uniqueItemsList`: of neighbours with the same address the first is kept. -/
def uniqueItemsList : List SearchResult → List SearchResult
  | [] => []
  | sr :: list => sr :: uniqueAfter core sr list

/-- `findAddress`: some result has that address. -/
def findAddress (list : List SearchResult) (addr : Address) : Bool :=
  list.any fun r => r.address.any (·.uri == addr.uri)

/-! ## Searches -/

/-- The address of a call log that is searched: the other party's. -/
def CallLog.address (log : CallLog) : Option Address :=
  if log.incoming then log.fromAddress else log.toAddress

/-- The result of a call log in `MagicSearch::getAddressFromCallLog` (`magic-search.cpp:200`), for a
filter that is not empty. -/
def searchInLog (filter withDomain : Str) (currentList : List SearchResult) (log : CallLog) :
    Option SearchResult :=
  match log.address with
  | none => none
  | some addr =>
    let weight := searchInAddress settings (some addr) filter withDomain
    if settings.minWeight < weight then
      if findAddress currentList addr then none
      else some { weight, address := some addr, phoneNumber := [], lFriend := none }
    else none

/-- `MagicSearch::getAddressFromCallLog` for a filter that is not empty. -/
def getAddressFromCallLog (filter withDomain : Str) (currentList : List SearchResult) :
    List SearchResult :=
  core.callLogs.filterMap (searchInLog settings filter withDomain currentList)

/-- The friends' part of `MagicSearch::beginNewSearch`. -/
def searchInFriends (filter withDomain : Str) : List SearchResult :=
  core.friends.foldl (fun resultList lFriend =>
    addResultsToResultsList (searchInFriend settings core lFriend filter withDomain) resultList) []

/-- `MagicSearch::beginNewSearch` (`magic-search.cpp:299`). -/
def beginNewSearch (filter withDomain : Str) : List SearchResult :=
  let resultList := searchInFriends settings core filter withDomain
  let clResults := getAddressFromCallLog settings core filter withDomain resultList
  uniqueItemsList core (addResultsToResultsList clResults resultList)

/-- One cached result in `MagicSearch::continueSearch`. -/
def continueWith (filter withDomain : Str) (resultList : List SearchResult) (sr : SearchResult) :
    List SearchResult :=
  if sr.address.isSome || !sr.phoneNumber.isEmpty then
    match sr.lFriend with
    | some lFriend =>
      addResultsToResultsList (searchInFriend settings core lFriend filter withDomain) resultList
    | none =>
      let weight := searchInAddress settings sr.address filter withDomain
      if settings.minWeight < weight then
        resultList ++ [{ weight, address := sr.address, phoneNumber := sr.phoneNumber
                         lFriend := none }]
      else resultList
  else resultList

/-- `MagicSearch::continueSearch` (`magic-search.cpp:317`). -/
def continueSearch (cacheList : List SearchResult) (filter withDomain : Str) : List SearchResult :=
  uniqueItemsList core (cacheList.foldl (continueWith settings core filter withDomain) [])

/-- The list `MagicSearch::getContactListFromFilter` (`magic-search.cpp:119`) caches, for a filter that
is not empty: `sort` is `std::list::sort` with a comparison that is no strict order. -/
def cachedResults (sort : List SearchResult → List SearchResult)
    (cache : Option (List SearchResult)) (filter withDomain : Str) : List SearchResult :=
  match cache with
  | some cacheList => sort (continueSearch settings core cacheList filter withDomain)
  | none => sort (beginNewSearch settings core filter withDomain)

/-- The list that is returned: the cached one up to the limit, and an address made of the filter when
there is a default proxy with a domain. -/
def returnedResults (resultList : List SearchResult) (filter : Str) : List SearchResult :=
  let returnList :=
    if settings.limitedSearch && settings.searchLimit < resultList.length then
      resultList.take settings.searchLimit
    else resultList
  match core.proxyDomain with
  | none => returnList
  | some domain =>
    match core.createAddress ("sip:".toList ++ (lower filter ++ '@' :: domain)) with
    | none => returnList
    | some lastResult =>
      returnList ++ [{ weight := 0, address := some lastResult, phoneNumber := [], lFriend := none }]

/-- `MagicSearch::getContactListFromFilter` for a filter that is not empty: what it returns and the cache
it leaves. -/
def getContactListFromFilter (sort : List SearchResult → List SearchResult)
    (cache : Option (List SearchResult)) (filter withDomain : Str) :
    List SearchResult × Option (List SearchResult) :=
  let resultList := cachedResults settings core sort cache filter withDomain
  (returnedResults settings core resultList filter, some resultList)

/-- The cache after a sequence of filters. -/
def cacheAfter (sort : List SearchResult → List SearchResult) (filters : List Str)
    (withDomain : Str) : Option (List SearchResult) :=
  filters.foldl (fun cache filter =>
    (getContactListFromFilter settings core sort cache filter withDomain).2) none

end GrooveIp.Search
