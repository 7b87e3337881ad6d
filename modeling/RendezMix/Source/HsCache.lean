import RendezMix.Library.KeyedLists
import RendezMix.Library.Runs

/-!
# The caches of onion service descriptors

The directory cache and the client cache of `feature/hs/hs_cache.c`, and the count of the bytes
that both hold. The maps are searched by key; nothing depends on the order of their entries. What
decoding a descriptor gives is a parameter of the calls that decode one, and `κ` is the type of
keys. The sizes are of what is in memory, so that their sum does not overflow.
-/
namespace RendezMix.Source.HsCache
open Library.KeyedLists Library.Runs

/-! ## Descriptors and their sizes -/

/-- `hs_desc_plaintext_data_t` -/
structure HsPlaintext (κ : Type*) where
  blindedPubkey : κ
  revisionCounter : UInt64
  lifetimeSec : UInt32
  superencryptedBlobSize : Nat
  deriving DecidableEq

/-- `hs_descriptor_t`, with the lengths of its lists. -/
structure HsDescriptor (κ : Type*) where
  plaintextData : HsPlaintext κ
  introAuthTypes : Option Nat
  introPoints : Option Nat
  deriving DecidableEq

/-- `hs_cache_dir_descriptor_t` -/
structure DirDescriptor (κ : Type*) where
  createdTs : Int
  plaintextData : HsPlaintext κ
  encodedDesc : List UInt8
  deriving DecidableEq

/-- The key points into the plaintext data. -/
def DirDescriptor.key {κ : Type*} (desc : DirDescriptor κ) : κ := desc.plaintextData.blindedPubkey

/-- `hs_cache_client_descriptor_t` -/
structure ClientDescriptor (κ : Type*) where
  key : κ
  expirationTs : Int
  desc : Option (HsDescriptor κ)
  encodedDesc : List UInt8
  deriving DecidableEq

/-- The sizes of the structures, which depend on the platform. -/
structure Sizeofs where
  dirDescriptor : Nat
  plaintextData : Nat
  tcert : Nat
  clientDescriptor : Nat
  encryptedData : Nat
  introAuthTypes : Nat
  introPoint : Nat
  subcredential : Nat
  plaintextData_pos : 0 < plaintextData
  clientDescriptor_pos : 0 < clientDescriptor

section Sizes

variable {κ : Type*} (z : Sizeofs)

def hsDescPlaintextObjSize (data : HsPlaintext κ) : Nat :=
  z.plaintextData + z.tcert + data.superencryptedBlobSize

def hsDescEncryptedObjSize (desc : HsDescriptor κ) : Nat :=
  z.encryptedData
    + ((desc.introAuthTypes.map fun len => len * z.introAuthTypes).getD 0
      + (desc.introPoints.map fun len => len * z.introPoint).getD 0)

def hsDescObjSize (desc : HsDescriptor κ) : Nat :=
  hsDescPlaintextObjSize z desc.plaintextData + hsDescEncryptedObjSize z desc + z.subcredential

def cacheGetDirEntrySize (entry : DirDescriptor κ) : Nat :=
  z.dirDescriptor + hsDescPlaintextObjSize z entry.plaintextData + entry.encodedDesc.length

def cacheGetClientEntrySize (entry : ClientDescriptor κ) : Nat :=
  z.clientDescriptor + entry.encodedDesc.length + (entry.desc.map (hsDescObjSize z)).getD 0

end Sizes

/-! ## The count of bytes -/

/-- `hs_cache_total_allocation`, and the flag of `hs_cache_decrement_allocation`. -/
structure Allocation where
  total : Nat
  haveUnderflowed : Bool
  deriving DecidableEq

def hsCacheIncrementAllocation (n : Nat) (a : Allocation) : Allocation :=
  { a with total := a.total + n }

def hsCacheDecrementAllocation (n : Nat) (a : Allocation) : Allocation :=
  if a.total ≥ n then { a with total := a.total - n } else ⟨0, true⟩

/-- The loops that free the entries for which `gone` holds: what is left, and the bytes freed. -/
def cleanLoop {ε : Type*} (gone : ε → Bool) (size : ε → Nat) :
    List ε → Allocation → List ε × Allocation × Nat
  | [], a => ([], a, 0)
  | entry :: rest, a =>
    if gone entry then
      let (kept, a, bytes) := cleanLoop gone size rest (hsCacheDecrementAllocation (size entry) a)
      (kept, a, size entry + bytes)
    else
      let (kept, a, bytes) := cleanLoop gone size rest a
      (entry :: kept, a, bytes)

structure HsCaches (κ : Type*) where
  v3Dir : List (DirDescriptor κ)
  v3Client : List (ClientDescriptor κ)
  allocation : Allocation
  deriving DecidableEq

def newHsCaches {κ : Type*} : HsCaches κ := ⟨[], [], ⟨0, false⟩⟩

variable {κ : Type*} [DecidableEq κ] (z : Sizeofs)

/-! ## The directory cache -/

def cacheStoreV3AsDir (desc : DirDescriptor κ) (s : HsCaches κ) : HsCaches κ :=
  let store (s : HsCaches κ) : HsCaches κ :=
    { s with
      v3Dir := desc :: s.v3Dir
      allocation := hsCacheIncrementAllocation (cacheGetDirEntrySize z desc) s.allocation }
  match find DirDescriptor.key desc.key s.v3Dir with
  | none => store s
  | some entry =>
    if entry.plaintextData.revisionCounter ≥ desc.plaintextData.revisionCounter then s
    else
      store { s with
        v3Dir := remove DirDescriptor.key entry.key s.v3Dir
        allocation := hsCacheDecrementAllocation (cacheGetDirEntrySize z entry) s.allocation }

/-- The test of `cache_clean_v3_as_dir` for an entry that has expired. -/
def dirExpired (now globalCutoff : Int) (entry : DirDescriptor κ) : Bool :=
  let cutoff :=
    if globalCutoff = 0 then now - entry.plaintextData.lifetimeSec.toNat else globalCutoff
  decide (entry.createdTs ≤ cutoff)

/-- `cache_clean_v3_as_dir`; `none` is a failed assertion. -/
def cacheCleanV3AsDir (now globalCutoff : Int) (s : HsCaches κ) : Option (HsCaches κ × Nat) :=
  if globalCutoff < 0 then none
  else
    let (kept, a, bytes) :=
      cleanLoop (dirExpired now globalCutoff) (cacheGetDirEntrySize z) s.v3Dir s.allocation
    some ({ s with v3Dir := kept, allocation := a }, bytes)

def hsCacheMaxEntryLifetime : Int := 2 * 24 * 60 * 60 + 24 * 60 * 60

/-- What `hs_cache_handle_oom` is called with and reads of the options, which are validated. -/
structure OomEnv where
  now : Int
  minRemoveBytes : Nat
  rendPostPeriod : Int
  minRemoveBytes_pos : 0 < minRemoveBytes
  rendPostPeriod_pos : 0 < rendPostPeriod

/-- The loop of `hs_cache_handle_oom`, which is entered with fewer bytes than it has to remove. -/
def oomLoop (env : OomEnv) (k : Int) (bytesRemoved : Nat) (s : HsCaches κ) :
    Option (HsCaches κ × Nat) :=
  if k < 0 then some (s, bytesRemoved)
  else
    match cacheCleanV3AsDir z env.now (env.now - k) s with
    | none => none
    | some (s, bytes) =>
      if bytesRemoved + bytes < env.minRemoveBytes then
        oomLoop env (k - env.rendPostPeriod) (bytesRemoved + bytes) s
      else some (s, bytesRemoved + bytes)
termination_by (k + 1).toNat
decreasing_by
  have positive := env.rendPostPeriod_pos
  omega

def hsCacheHandleOom (env : OomEnv) (s : HsCaches κ) : Option (HsCaches κ × Nat) :=
  oomLoop z env hsCacheMaxEntryLifetime 0 s

/-! ## The client cache -/

/-- `cached_client_descriptor_has_expired`, for the start of a consensus that is live enough. -/
def cachedClientDescriptorHasExpired (validAfter : Option Int) (entry : ClientDescriptor κ) : Bool :=
  match validAfter with
  | none => true
  | some validAfter => decide (entry.expirationTs ≤ validAfter)

def lookupV3DescAsClient (validAfter : Option Int) (key : κ) (s : HsCaches κ) :
    Option (ClientDescriptor κ) :=
  match find ClientDescriptor.key key s.v3Client with
  | none => none
  | some entry => if cachedClientDescriptorHasExpired validAfter entry then none else some entry

inductive HsDecodeStatus
  | ok
  | needClientAuth
  | badClientAuth
  | error
  deriving DecidableEq

/-- What `hs_client_decode_descriptor` returns, and what it leaves in `*desc`. -/
structure HsDecoding (κ : Type*) where
  status : HsDecodeStatus
  desc : Option (HsDescriptor κ)
  given : status = .ok → desc ≠ none

def cacheClientDescNew (encodedDesc : List UInt8) (key : κ) (expirationTs : Int)
    (decoding : HsDecoding κ) : Option (ClientDescriptor κ) :=
  match decoding.status with
  | .error => none
  | .ok => some ⟨key, expirationTs, decoding.desc, encodedDesc⟩
  | .needClientAuth | .badClientAuth =>
    if decoding.desc ≠ none then none else some ⟨key, expirationTs, decoding.desc, encodedDesc⟩

def removeV3DescAsClient (entry : ClientDescriptor κ) (s : HsCaches κ) : HsCaches κ :=
  { s with
    v3Client := remove ClientDescriptor.key entry.key s.v3Client
    allocation := hsCacheDecrementAllocation (cacheGetClientEntrySize z entry) s.allocation }

/-- `store_v3_desc_as_client`; an entry with the same key is freed. -/
def storeV3DescAsClient (desc : ClientDescriptor κ) (s : HsCaches κ) : HsCaches κ :=
  { s with
    v3Client := desc :: remove ClientDescriptor.key desc.key s.v3Client
    allocation := hsCacheIncrementAllocation (cacheGetClientEntrySize z desc) s.allocation }

def cacheStoreAsClient (validAfter : Option Int) (clientDesc : ClientDescriptor κ) (s : HsCaches κ) :
    HsCaches κ :=
  match lookupV3DescAsClient validAfter clientDesc.key s with
  | none => storeV3DescAsClient z clientDesc s
  | some cacheEntry =>
    match cacheEntry.desc, clientDesc.desc with
    | some old, some new =>
      if old.plaintextData.revisionCounter > new.plaintextData.revisionCounter then s
      else storeV3DescAsClient z clientDesc (removeV3DescAsClient z cacheEntry s)
    | _, _ => storeV3DescAsClient z clientDesc (removeV3DescAsClient z cacheEntry s)

def hsCacheStoreAsClient (validAfter : Option Int) (encodedDesc : List UInt8) (key : κ)
    (expirationTs : Int) (decoding : HsDecoding κ) (s : HsCaches κ) : HsCaches κ :=
  match cacheClientDescNew encodedDesc key expirationTs decoding with
  | none => s
  | some clientDesc => cacheStoreAsClient z validAfter clientDesc s

def hsCacheRemoveAsClient (validAfter : Option Int) (key : κ) (s : HsCaches κ) : HsCaches κ :=
  match lookupV3DescAsClient validAfter key s with
  | none => s
  | some entry => removeV3DescAsClient z entry s

/-- `cache_clean_v3_as_client` and `hs_cache_purge_as_client`, which frees every entry. -/
def cleanClient (gone : ClientDescriptor κ → Bool) (s : HsCaches κ) : HsCaches κ × Nat :=
  let (kept, a, bytes) := cleanLoop gone (cacheGetClientEntrySize z) s.v3Client s.allocation
  ({ s with v3Client := kept, allocation := a }, bytes)

def hsCacheClientNewAuthParse (validAfter : Option Int) (key : κ) (decoding : HsDecoding κ)
    (s : HsCaches κ) : HsCaches κ :=
  match lookupV3DescAsClient validAfter key s with
  | none => s
  | some entry =>
    if entry.desc ≠ none then s
    else
      { s with
        v3Client := replace ClientDescriptor.key { entry with desc := decoding.desc } s.v3Client }

/-! ## Runs -/

inductive HsCacheEvent (κ : Type*)
  /-- With what `cache_dir_desc_new` makes of the string. -/
  | storeDir (desc : Option (DirDescriptor κ))
  | lookupDir (key : κ)
  | cleanDir (now : Int)
  | oom (env : OomEnv)
  | storeClient (validAfter : Option Int) (encodedDesc : List UInt8) (key : κ) (expirationTs : Int)
      (decoding : HsDecoding κ)
  | lookupClient (validAfter : Option Int) (key : κ)
  | removeClient (validAfter : Option Int) (key : κ)
  | cleanClient (validAfter : Option Int)
  | purgeClient
  | newAuth (validAfter : Option Int) (key : κ) (decoding : HsDecoding κ)

inductive HsCacheReply
  | done
  | removed (bytes : Nat)
  /-- An assertion failed. -/
  | aborted
  deriving DecidableEq

/-- The result of a call that returns the bytes it has removed. -/
def removing (s : HsCaches κ) : Option (HsCaches κ × Nat) → HsCaches κ × HsCacheReply
  | none => (s, .aborted)
  | some (s, bytes) => (s, .removed bytes)

/-- One call. -/
def hsCacheStep (s : HsCaches κ) : HsCacheEvent κ → HsCaches κ × HsCacheReply
  | .storeDir none => (s, .done)
  | .storeDir (some desc) => (cacheStoreV3AsDir z desc s, .done)
  | .lookupDir _ | .lookupClient _ _ => (s, .done)
  | .cleanDir now => removing s (cacheCleanV3AsDir z now 0 s)
  | .oom env => removing s (hsCacheHandleOom z env s)
  | .storeClient validAfter encodedDesc key expirationTs decoding =>
    (hsCacheStoreAsClient z validAfter encodedDesc key expirationTs decoding s, .done)
  | .removeClient validAfter key => (hsCacheRemoveAsClient z validAfter key s, .done)
  | .cleanClient validAfter =>
    removing s (some (cleanClient z (cachedClientDescriptorHasExpired validAfter) s))
  | .purgeClient => removing s (some (cleanClient z (fun _ => true) s))
  | .newAuth validAfter key decoding => (hsCacheClientNewAuthParse validAfter key decoding s, .done)

def HsCacheStep (s : HsCaches κ) (call : HsCacheEvent κ × HsCacheReply) (s' : HsCaches κ) : Prop :=
  hsCacheStep z s call.1 = (s', call.2)

instance (s : HsCaches κ) (call : HsCacheEvent κ × HsCacheReply) (s' : HsCaches κ) :
    Decidable (HsCacheStep z s call s') := by
  unfold HsCacheStep
  infer_instance

end RendezMix.Source.HsCache
