import CacheCleaner.Domain.Path

namespace CacheCleaner

structure AndroidUser where
  userId : Nat
  cePath : String
  dePath : String
  mediaPath : String
  deriving DecidableEq, Repr

def parseU32 (text : String) : Option Nat :=
  let digits := match text.toList with
    | '+' :: rest => rest
    | letters => letters
  if digits.isEmpty then none
  else if digits.all Char.isDigit then
    let value := digits.foldl (fun total digit =>
      10 * total + (digit.toNat - '0'.toNat)) 0
    if value < 2 ^ 32 then some value else none
  else none

def stripXml (name : String) : Option String :=
  if endsWithText name ".xml" then
    some (String.ofList (name.toList.take (name.length - 4)))
  else none

structure UserListing where
  systemUsers : List String
  user : List String
  userDe : List String
  media : List String
  profiles : List String

def UserListing.ids (listing : UserListing) : List Nat :=
  let parsed := (listing.systemUsers.filterMap stripXml ++ listing.user ++
    listing.userDe ++ listing.media ++ listing.profiles).filterMap parseU32
  (0 :: parsed).dedup.mergeSort fun left right => decide (left ≤ right)

/-- What `enumerate_users` learns from the filesystem: whether `/data/data`
exists, and where a path leads once symbolic links are resolved. -/
structure UserStorage where
  primaryExists : Bool
  canonicalize : String → Option String

namespace UserStorage

def ceRaw (id : Nat) : String := s!"/data/user/{id}"

def deRaw (id : Nat) : String := s!"/data/user_de/{id}"

def mediaRaw (id : Nat) : String := s!"/data/media/{id}"

def resolve (storage : UserStorage) (path : String) : String :=
  (storage.canonicalize path).getD path

def user (storage : UserStorage) (id : Nat) : AndroidUser where
  userId := id
  cePath :=
    if id = 0 then
      if storage.primaryExists then "/data/data" else "/data/user/0"
    else storage.resolve (ceRaw id)
  dePath := storage.resolve (deRaw id)
  mediaPath := storage.resolve (mediaRaw id)

end UserStorage

def enumerateUsers (listing : UserListing) (storage : UserStorage) : List AndroidUser :=
  listing.ids.map storage.user

end CacheCleaner
