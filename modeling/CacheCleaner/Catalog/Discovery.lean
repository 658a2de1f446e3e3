import CacheCleaner.Catalog.Users
import CacheCleaner.Domain.Plan
import CacheCleaner.Fs.Tree

namespace CacheCleaner

inductive EncryptionState where
  | unencrypted
  | deviceEncryptedOnly
  | fullyUnlocked
  | unknown
  deriving DecidableEq, Repr

structure FileName where
  text : String
  valid : Fs.validateSingleComponent text = true

/-- An entry of `fs::read_dir`; the name is absent when it is not UTF-8. -/
structure DirView where
  name : Option FileName
  isDir : Bool

/-- What one discovery sees: the enumerated users, the encryption state of each
and the directories it can read and open. -/
structure PlatformView where
  users : List AndroidUser
  encryption : Nat → EncryptionState
  readDir : String → Option (List DirView)
  openRoot : String → Option (Nat × Nat)
  owner : String → Option (Nat × Nat)

def knownCacheSubdirs : List String :=
  ["cache", ".cache", "app_webview/Default/Cache",
    "app_webview/Default/Code Cache", "app_webview/Default/GPUCache",
    "app_textures", "splash_cache", "image_cache", "fresco_cache",
    "glide_cache", "coil_cache", "http-engine-cache", "picasso-cache",
    "volley", "disk_cache", "network_cache"]

def systemJunkLocations : List (String × TargetClass × TargetSafetyTier) :=
  [("/data/anr", .tombstones, .standardCache), ("/data/tombstones", .tombstones, .standardCache),
    ("/data/system/dropbox", .logArchive, .standardCache),
    ("/data/local/tmp", .tempDir, .standardCache)]

def underscored (text : String) : String :=
  String.ofList (text.toList.map fun character =>
    if character = '/' then '_' else character)

namespace TargetCatalog

abbrev Staging := Table TargetDescriptor.targetId

def appTargetId (user : Nat) (package sub : String) : String :=
  if user = 0 then
    if sub = "cache" then s!"android:{package}:cache"
    else
      let flat := underscored sub
      s!"android:{package}:{flat}:cache"
  else if sub = "cache" then s!"android:u{user}:{package}:cache"
  else
    let flat := underscored sub
    s!"android:u{user}:{package}:{flat}:cache"

def describe (view : PlatformView) (id : TargetId) (targetClass : TargetClass)
    (path : String) (identity : Nat × Nat) (package : Option String)
    (tier : TargetSafetyTier) (generation : CatalogGeneration) : TargetDescriptor where
  targetId := id
  targetClass := targetClass
  basePath := path
  dev := identity.1
  ino := identity.2
  ownerUid := ((view.owner path).getD (0, 0)).1
  ownerGid := ((view.owner path).getD (0, 0)).2
  packageName := package
  safetyTier := tier
  catalogGeneration := generation

/-- One known cache directory of a package.  A target already registered with
the least restrictive tier is kept. -/
def collectSubdir (view : PlatformView) (user : Nat)
    (generation : CatalogGeneration) (packagePath package : String)
    (out : Staging) (sub : String) : Staging :=
  let cacheDir := pathJoin packagePath sub
  match view.openRoot cacheDir with
  | none => out
  | some identity =>
    match TargetId.tryNew (appTargetId user package sub) with
    | none => out
    | some id =>
      match out.find id with
      | some existing =>
        if existing.safetyTier.rank ≤ TargetSafetyTier.standardCache.rank then out
        else out.upsert (describe view id .appCache cacheDir identity
          (some package) .standardCache generation)
      | none => out.upsert (describe view id .appCache cacheDir identity
          (some package) .standardCache generation)

def acceptedPackageName (name : String) : Bool :=
  !(name == "" || decide (255 < name.utf8ByteSize) || containsChar name '\x00')

/-- The loop over the entries of a user directory; it stops for good once more
than 5000 targets are registered. -/
def collectPackages (view : PlatformView) (base : String) (user : Nat)
    (generation : CatalogGeneration) : List DirView → Staging → Staging
  | [], out => out
  | entry :: rest, out =>
    if entry.isDir then
      match entry.name with
      | none => collectPackages view base user generation rest out
      | some name =>
        if acceptedPackageName name.text then
          if 5000 < out.rows.length then out
          else
            collectPackages view base user generation rest (knownCacheSubdirs.foldl
                (collectSubdir view user generation (pathJoin base name.text) name.text) out)
        else collectPackages view base user generation rest out
    else collectPackages view base user generation rest out

def collectAndroidUserTargets (view : PlatformView) (base : String)
    (user : Nat) (generation : CatalogGeneration) (out : Staging) : Staging :=
  match view.readDir base with
  | none => out
  | some entries => collectPackages view base user generation entries out

def collectExternalEntry (view : PlatformView) (dataDir : String) (user : Nat)
    (generation : CatalogGeneration) (out : Staging) (entry : DirView) : Staging :=
  if entry.isDir then
    match entry.name with
    | none => out
    | some name =>
      let package := name.text
      let cacheDir := pathJoin (pathJoin dataDir package) "cache"
      match view.openRoot cacheDir with
      | none => out
      | some identity =>
        match TargetId.tryNew s!"android:u{user}:{package}:ext_cache" with
        | none => out
        | some id =>
          out.upsert (describe view id .externalCache cacheDir identity
            (some package) .standardCache generation)
  else out

def collectAndroidExternalTargets (view : PlatformView) (mediaBase : String)
    (user : Nat) (generation : CatalogGeneration) (out : Staging) : Staging :=
  let dataDir := pathJoin mediaBase "Android/data"
  match view.readDir dataDir with
  | none => out
  | some entries =>
    entries.foldl (collectExternalEntry view dataDir user generation) out

def collectSystemLocation (view : PlatformView) (generation : CatalogGeneration) (out : Staging)
    (location : String × TargetClass × TargetSafetyTier) : Staging :=
  let (path, targetClass, tier) := location
  match view.openRoot path with
  | none => out
  | some identity =>
    let flat := underscored path
    out.upsert (describe view ⟨s!"system:{flat}"⟩ targetClass path identity none tier generation)

/-- `collect_system_targets`; the fixed ids all pass `TargetId::new`. -/
def collectSystemTargets (view : PlatformView)
    (generation : CatalogGeneration) (out : Staging) : Staging :=
  systemJunkLocations.foldl (collectSystemLocation view generation) out

def collectUser (view : PlatformView) (generation : CatalogGeneration)
    (out : Staging) (user : AndroidUser) : Staging :=
  match view.encryption user.userId with
  | .fullyUnlocked | .unencrypted =>
    let ce := collectAndroidUserTargets view user.cePath user.userId generation out
    let de := collectAndroidUserTargets view user.dePath user.userId generation ce
    collectAndroidExternalTargets view user.mediaPath user.userId generation de
  | .deviceEncryptedOnly =>
    collectAndroidUserTargets view user.dePath user.userId generation out
  | .unknown => out

def foundAnyUser (view : PlatformView) : Bool :=
  view.users.any fun user => decide (view.encryption user.userId ≠ .unknown)

/-- The fixed locations scanned when no user could be judged. -/
def collectFallback (view : PlatformView) (generation : CatalogGeneration)
    (out : Staging) : Staging :=
  let primary := collectAndroidUserTargets view "/data/user/0" 0 generation out
  let device := collectAndroidUserTargets view "/data/user_de/0" 0 generation primary
  collectAndroidUserTargets view "/data/data" 0 generation device

/-- The staging map `discover_all_targets` builds before it decides whether to
publish it. -/
def staged (view : PlatformView) (generation : CatalogGeneration) : Staging :=
  let users := view.users.foldl (collectUser view generation) Table.empty
  let all := if foundAnyUser view then users
    else collectFallback view generation users
  collectSystemTargets view generation all

/-- The snapshot `discover_all_targets` publishes; an empty result never replaces a
non-empty snapshot. -/
def discovered? (view : PlatformView) (snapshot : CatalogSnapshot) : Option CatalogSnapshot :=
  let generation := snapshot.generation.next?.getD snapshot.generation
  let staging := staged view generation
  if !staging.rows.isEmpty || snapshot.targets.rows.isEmpty then
    some ⟨generation, staging⟩
  else none

def discoverAllTargets (view : PlatformView) (snapshot : CatalogSnapshot) : CatalogSnapshot :=
  (discovered? view snapshot).getD snapshot

def new : CatalogSnapshot := ⟨.initial, Table.empty⟩

end TargetCatalog

end CacheCleaner
