import Obtcd.Blockchain.Error
import Obtcd.Wire.Decode

/-!
# Paging through the transactions of an address

The address index keeps the transactions of an address in levels, each a string of entries of twelve
bytes.  The lower levels have the newer entries, and within a level the oldest comes first, so the
levels from the highest to the lowest, one after the other, are all the entries in order.

`dbFetchAddrIndexEntries` skips some of them and returns those that follow, from the oldest on or,
in reverse, from the newest on.  In reverse it loads only as many levels as it thinks it needs: those
that hold `numToSkip + numRequested` entries.  The two numbers are 32 bits wide and so is their sum.
When the sum is too large for that, what is left of it may be reached by the first levels, and the
older ones are treated as if they were not there.  `fetch_exact_iff` shows that this is the only way
in which the answer can be wrong.
-/

namespace Obtcd

open Bytes List

namespace AddrIndex

/-! ## Entries -/

/-- `database.BlockRegion`. -/
structure BlockRegion where
  hash : Hash
  offset : UInt32
  len : UInt32
deriving DecidableEq

/-- The errors of the address index: an `errDeserialize`, a `database.Error` with the code
`ErrCorruption`, and any other. -/
inductive IndexError
  | deserialize (text : String)
  | corruption (description : String)
  | other (err : GoError)
deriving DecidableEq

/-- What an entry is made of: the id of a block and where in it the transaction lies. -/
structure Entry where
  blockID : UInt32
  txLoc : TxLoc

def txEntrySize : Nat := 4 + 4 + 4

def serializeAddrIndexEntry (e : Entry) : Bytes :=
  le 4 e.blockID.toNat ++ le 4 (UInt32.ofNat e.txLoc.txStart).toNat ++
    le 4 (UInt32.ofNat e.txLoc.txLen).toNat

/-- The value of a level that has these entries. -/
def serializeLevel (l : List Entry) : Bytes := l.flatMap serializeAddrIndexEntry

/-- `byteOrder.Uint32` of the four bytes at `i`. -/
def uint32At (serialized : Bytes) (i : Nat) : UInt32 :=
  UInt32.ofNat (leNat ((serialized.drop i).take 4))

variable (fetchBlockHash : Bytes → Except IndexError Hash)

def deserializeAddrIndexEntry (serialized : Bytes) : Except IndexError BlockRegion := do
  if serialized.length < txEntrySize then throw (.deserialize "unexpected end of data")
  let hash ← fetchBlockHash (serialized.take 4)
  return ⟨hash, uint32At serialized 4, uint32At serialized 8⟩

/-- Any error in the bytes of an entry is one of the database. -/
def asCorruption (addrKey : Bytes) : IndexError → IndexError
  | .deserialize text => .corruption
      ("failed to deserialized address index for key " ++ hex addrKey ++ ": " ++ text)
  | err => err

/-! ## Fetching -/

def keyForLevel (addrKey : Bytes.Sized 21) (level : Nat) : Bytes := addrKey.val ++ [UInt8.ofNat level]

variable (bucket : Bytes → Option Bytes) (addrKey : Bytes.Sized 21)

/-- The loop over the levels, with `left` of the 256 level numbers still to come.  It has no result
when it does not stop at any of them. -/
def loadLevels (reverse : Bool) (wanted : Nat) : Nat → Bytes → Option Bytes
  | 0, _ => none
  | left + 1, serialized =>
    if reverse = false ∨ serialized.length < wanted then
      match bucket (keyForLevel addrKey (256 - (left + 1))) with
      | none => some serialized
      | some levelData => loadLevels reverse wanted left (levelData ++ serialized)
    else some serialized

/-- What `dbFetchAddrIndexEntries` makes of the levels it has loaded. -/
def loadEntries (serialized : Bytes) (numToSkip numRequested : UInt32) (reverse : Bool) :
    Except IndexError (List BlockRegion × UInt32) :=
  let numEntries := UInt32.ofNat (serialized.length / txEntrySize)
  if numEntries ≤ numToSkip then .ok ([], numEntries)
  else if numRequested = 0 then .ok ([], numToSkip)
  else do
    let numToLoad :=
      if numRequested < numEntries - numToSkip then numRequested else numEntries - numToSkip
    let results ← (List.range numToLoad.toNat).mapM fun i =>
      let offset := (if reverse then numEntries - numToSkip - UInt32.ofNat i - 1
        else numToSkip + UInt32.ofNat i) * UInt32.ofNat txEntrySize
      (deserializeAddrIndexEntry fetchBlockHash (serialized.drop offset.toNat)).mapError
        (asCorruption addrKey.val)
    return (results, numToSkip)

def dbFetchAddrIndexEntries (numToSkip numRequested : UInt32) (reverse : Bool) :
    Option (Except IndexError (List BlockRegion × UInt32)) :=
  (loadLevels bucket addrKey reverse ((numToSkip + numRequested).toNat * txEntrySize) 256 []).map
    fun serialized => loadEntries fetchBlockHash addrKey serialized numToSkip numRequested reverse

/-! ## What should be returned -/

/-- The region an entry stands for. -/
def region (e : Entry) : Except IndexError BlockRegion :=
  (fetchBlockHash (le 4 e.blockID.toNat)).mapError (asCorruption addrKey.val) >>= fun hash =>
    .ok ⟨hash, UInt32.ofNat e.txLoc.txStart, UInt32.ofNat e.txLoc.txLen⟩

/-- The window of a list of entries, oldest first, and how many were skipped before it. -/
def page (entries : List Entry) (numToSkip numRequested : UInt32) (reverse : Bool) :
    Except IndexError (List BlockRegion × UInt32) := do
  let ordered := if reverse then entries.reverse else entries
  let results ← ((ordered.drop numToSkip.toNat).take numRequested.toNat).mapM
    (region fetchBlockHash addrKey)
  return (results, UInt32.ofNat (min numToSkip.toNat entries.length))

/-- The bucket has these levels of entries for the address. -/
structure Holds (levels : List (List Entry)) : Prop where
  count : levels.length < 256
  get : ∀ level < 256, bucket (keyForLevel addrKey level) = levels[level]?.map serializeLevel

/-- The number of the entries that have been loaded and the offsets of those in the window are numbers
of 32 bits. -/
structure Fits (numToSkip numRequested : UInt32) (reverse : Bool) (numEntries : Nat) : Prop where
  count : numEntries < 2 ^ 32
  offset : ∀ i < numRequested.toNat, numToSkip.toNat + i < numEntries →
    (if reverse then numEntries - 1 - (numToSkip.toNat + i) else numToSkip.toNat + i) *
      txEntrySize < 2 ^ 32

/-- The loop gets to the level `k`: in reverse, no level before has made it stop. -/
def Loads (levels : List (List Entry)) (numToSkip numRequested : UInt32) (reverse : Bool) (k : Nat) :
    Prop :=
  ∀ j < k, reverse = true → (levels.take j).flatten.length < (numToSkip + numRequested).toNat

/-- In reverse, if the two numbers add up to more than 32 bits hold, then the first levels that reach
what is left of the sum have all the entries. -/
def Reached (levels : List (List Entry)) (numToSkip numRequested : UInt32) : Prop :=
  2 ^ 32 ≤ numToSkip.toNat + numRequested.toNat → ∀ k,
    (numToSkip + numRequested).toNat ≤ (levels.take k).flatten.length →
      (levels.take k).flatten.length = levels.flatten.length

/-! ## The bytes of a list of entries -/

theorem length_serialize (e : Entry) : (serializeAddrIndexEntry e).length = txEntrySize := by
  simp [serializeAddrIndexEntry, txEntrySize]

theorem serializeLevel_cons (e : Entry) (l : List Entry) :
    serializeLevel (e :: l) = serializeAddrIndexEntry e ++ serializeLevel l := flatMap_cons

theorem serializeLevel_append (l l' : List Entry) :
    serializeLevel (l ++ l') = serializeLevel l ++ serializeLevel l' := flatMap_append

theorem length_serializeLevel (l : List Entry) :
    (serializeLevel l).length = l.length * txEntrySize := by
  induction l with
  | nil => rfl
  | cons e l ih => simp [serializeLevel_cons, ih, length_serialize, Nat.succ_mul, Nat.add_comm]

theorem drop_serializeLevel (l : List Entry) (i : Nat) :
    (serializeLevel l).drop (i * txEntrySize) = serializeLevel (l.drop i) := by
  induction l generalizing i with
  | nil => simp [serializeLevel]
  | cons e l ih =>
    cases i with
    | zero => simp
    | succ i =>
      rw [serializeLevel_cons, Nat.succ_mul, Nat.add_comm, ← drop_drop,
        drop_left' (length_serialize e), ih, drop_succ_cons]

variable {fetchBlockHash bucket addrKey}

theorem deserialize_serialize (e : Entry) (rest : Bytes) :
    (deserializeAddrIndexEntry fetchBlockHash (serializeAddrIndexEntry e ++ rest)).mapError
      (asCorruption addrKey.val) = region fetchBlockHash addrKey e := by
  have hlen : ¬ (serializeAddrIndexEntry e ++ rest).length < txEntrySize := by
    simp [length_serialize]
  have hid : (serializeAddrIndexEntry e ++ rest).take 4 = le 4 e.blockID.toNat := by
    simp [serializeAddrIndexEntry, append_assoc]
  have hstart : uint32At (serializeAddrIndexEntry e ++ rest) 4 = UInt32.ofNat e.txLoc.txStart := by
    rw [uint32At, serializeAddrIndexEntry, append_assoc, append_assoc,
      drop_left' (length_le ..), take_left' (length_le ..),
      leNat_le_of_lt (UInt32.toNat_lt _), UInt32.ofNat_toNat]
  have hsize : uint32At (serializeAddrIndexEntry e ++ rest) 8 = UInt32.ofNat e.txLoc.txLen := by
    rw [uint32At, serializeAddrIndexEntry, append_assoc, drop_left' (by simp),
      take_left' (length_le ..), leNat_le_of_lt (UInt32.toNat_lt _), UInt32.ofNat_toNat]
  rw [deserializeAddrIndexEntry, if_neg hlen, hid, hstart, hsize, region]
  cases fetchBlockHash (le 4 e.blockID.toNat) <;> rfl

/-- A loop over positions is a loop over what stands there. -/
theorem mapM_range {α β ε : Type} {f : α → Except ε β} (l : List α) {g : Nat → Except ε β}
    (h : ∀ i (hi : i < l.length), g i = f l[i]) : (List.range l.length).mapM g = l.mapM f := by
  induction l generalizing g with
  | nil => rfl
  | cons a l ih =>
    rw [length_cons, range_succ_eq_map, mapM_cons, mapM_cons, mapM_map,
      ih (g := g ∘ Nat.succ) fun i hi => h (i + 1) (Nat.succ_lt_succ hi), h 0 (Nat.succ_pos _)]
    rfl

variable {l : List Entry}

/-- The bytes at the position of an entry are read as that entry. -/
theorem deserialize_at {i : Nat} (hi : i < l.length) :
    (deserializeAddrIndexEntry fetchBlockHash
      ((serializeLevel l).drop (i * txEntrySize))).mapError
        (asCorruption addrKey.val) = region fetchBlockHash addrKey l[i] := by
  rw [drop_serializeLevel, drop_eq_getElem_cons hi, serializeLevel_cons, deserialize_serialize]

/-- Of the entries that have been loaded the right ones are returned. -/
theorem loadEntries_eq {numToSkip numRequested : UInt32} {reverse : Bool}
    (hl : Fits numToSkip numRequested reverse l.length) :
    loadEntries fetchBlockHash addrKey (serializeLevel l) numToSkip numRequested
      reverse = page fetchBlockHash addrKey l numToSkip numRequested reverse := by
  have hcount := hl.count
  have hN : (UInt32.ofNat ((serializeLevel l).length / txEntrySize)).toNat = l.length := by
    rw [length_serializeLevel, Nat.mul_div_cancel _ (by decide),
      UInt32.toNat_ofNat_of_lt' hcount]
  rw [loadEntries, page]
  generalize UInt32.ofNat ((serializeLevel l).length / txEntrySize) = n at hN ⊢
  have hlen : (if reverse then l.reverse else l).length = l.length := by cases reverse <;> simp
  by_cases hskip : n ≤ numToSkip
  · have hle : l.length ≤ numToSkip.toNat := by
      rw [← hN]
      exact UInt32.le_iff_toNat_le.1 hskip
    rw [if_pos hskip, drop_of_length_le (hlen.le.trans hle), take_nil, min_eq_right hle,
      ← hN, UInt32.ofNat_toNat]
    rfl
  have hlt : numToSkip.toNat < l.length := by
    rw [← hN]
    exact UInt32.lt_iff_toNat_lt.1 (UInt32.not_le.1 hskip)
  rw [if_neg hskip, min_eq_left hlt.le, UInt32.ofNat_toNat]
  by_cases hreq : numRequested = 0
  · rw [if_pos hreq, hreq]
    rfl
  rw [if_neg hreq]
  have hsub : (n - numToSkip).toNat = l.length - numToSkip.toNat := by
    rw [UInt32.toNat_sub, hN]
    omega
  have hload : (if numRequested < n - numToSkip then numRequested else n - numToSkip).toNat =
      (((if reverse then l.reverse else l).drop numToSkip.toNat).take numRequested.toNat).length := by
    rw [length_take, length_drop, hlen, ← hsub]
    split_ifs with h
    · exact (min_eq_left (UInt32.lt_iff_toNat_lt.1 h).le).symm
    · exact (min_eq_right (UInt32.le_iff_toNat_le.1 (UInt32.not_lt.1 h))).symm
  dsimp only
  rw [hload, mapM_range (f := region fetchBlockHash addrKey)]
  intro i hi
  have hi' : i < l.length - numToSkip.toNat := by
    rw [length_take, length_drop, hlen] at hi
    omega
  have hoffset := hl.offset i (by rw [length_take] at hi; omega) (by omega)
  rw [txEntrySize] at hoffset
  rw [getElem_take, getElem_drop]
  cases reverse with
  | false =>
    have hoff : ((numToSkip + UInt32.ofNat i) * UInt32.ofNat txEntrySize).toNat =
        (numToSkip.toNat + i) * txEntrySize := by
      simp only [Bool.false_eq_true, if_false] at hoffset
      rw [UInt32.toNat_mul, UInt32.toNat_add, UInt32.toNat_ofNat', UInt32.toNat_ofNat', txEntrySize]
      omega
    simp only [Bool.false_eq_true, if_false]
    rw [hoff, deserialize_at]
  | true =>
    have hoff : ((n - numToSkip - UInt32.ofNat i - 1) * UInt32.ofNat txEntrySize).toNat =
        (l.length - 1 - (numToSkip.toNat + i)) * txEntrySize := by
      simp only [if_true] at hoffset
      rw [UInt32.toNat_mul, UInt32.toNat_sub, UInt32.toNat_sub, hsub, UInt32.toNat_ofNat',
        UInt32.toNat_ofNat', UInt32.toNat_one, txEntrySize]
      omega
    simp only [if_true, getElem_reverse]
    rw [hoff, deserialize_at]

/-! ## The levels that are loaded -/

theorem loadLevels_serializeLevel (reverse : Bool) (wanted : Nat) {n : Nat} (hn : n < 256) (l : List Entry) :
    loadLevels bucket addrKey reverse (wanted * txEntrySize) (256 - n) (serializeLevel l) =
      if reverse = false ∨ l.length < wanted then
        match bucket (keyForLevel addrKey n) with
        | none => some (serializeLevel l)
        | some levelData => loadLevels bucket addrKey reverse (wanted * txEntrySize) (256 - (n + 1))
            (levelData ++ serializeLevel l)
      else some (serializeLevel l) := by
  have hleft : 256 - n = 256 - (n + 1) + 1 := by omega
  rw [hleft, loadLevels, ← hleft, Nat.sub_sub_self hn.le, length_serializeLevel]
  simp only [Nat.mul_lt_mul_right (show 0 < txEntrySize by decide)]

/-- The loop takes levels until there are none, or in reverse until they have as many entries as it
wants and no sooner. -/
theorem exists_loadLevels (reverse : Bool) (wanted : Nat) {levels : List (List Entry)} {n : Nat}
    (hn : n + levels.length < 256)
    (hget : ∀ i, n + i < 256 → bucket (keyForLevel addrKey (n + i)) =
      levels[i]?.map serializeLevel) (l : List Entry) :
    ∃ k, loadLevels bucket addrKey reverse (wanted * txEntrySize) (256 - n) (serializeLevel l) =
        some (serializeLevel ((levels.take k).reverse.flatten ++ l)) ∧
      (levels.length ≤ k ∨ reverse = true ∧ wanted ≤ (levels.take k).flatten.length + l.length) ∧
      ∀ j < k, reverse = true → (levels.take j).flatten.length + l.length < wanted := by
  induction levels generalizing n l with
  | nil =>
    refine ⟨0, ?_, .inl le_rfl, nofun⟩
    have hn : n < 256 := hn
    rw [loadLevels_serializeLevel reverse wanted hn, show bucket (keyForLevel addrKey n) = none from
      hget 0 hn]
    simp
  | cons level levels ih =>
    rw [length_cons] at hn
    rw [loadLevels_serializeLevel reverse wanted (by omega)]
    by_cases hgo : reverse = false ∨ l.length < wanted
    · obtain ⟨k, hk, hend, hbefore⟩ := ih (n := n + 1) (by omega)
        (fun i hi => by simpa [Nat.add_assoc, Nat.add_comm 1] using hget (i + 1) (by omega))
        (level ++ l)
      refine ⟨k + 1, ?_, ?_, ?_⟩
      · rw [if_pos hgo, show bucket (keyForLevel addrKey n) = some _ from hget 0 (by omega)]
        simpa [serializeLevel_append] using hk
      · simpa [Nat.add_assoc, Nat.add_left_comm] using hend
      · intro j hj hrev
        cases j with
        | zero => simpa [hrev] using hgo
        | succ j => simpa [Nat.add_assoc, Nat.add_left_comm] using hbefore j (by omega) hrev
    · rw [if_neg hgo]
      refine ⟨0, by simp, .inr ?_, nofun⟩
      simpa using hgo

/-! ## The answer -/

theorem page_of_ok (hash : Hash) (l : List Entry) (numToSkip numRequested : UInt32) :
    page (fun _ => .ok hash) addrKey l numToSkip numRequested true =
      .ok (((l.reverse.drop numToSkip.toNat).take numRequested.toNat).map fun e =>
        ⟨hash, UInt32.ofNat e.txLoc.txStart, UInt32.ofNat e.txLoc.txLen⟩,
        UInt32.ofNat (min numToSkip.toNat l.length)) := by
  rw [page, if_pos rfl, show region (fun _ => .ok hash) addrKey = fun e =>
    pure ⟨hash, UInt32.ofNat e.txLoc.txStart, UInt32.ofNat e.txLoc.txLen⟩ from rfl, mapM_pure]
  rfl

/-- Older entries do not matter when the window ends before them. -/
theorem page_append {older : List Entry} {numToSkip numRequested : UInt32}
    (h : numToSkip.toNat + numRequested.toNat ≤ l.length) :
    page fetchBlockHash addrKey (older ++ l) numToSkip numRequested true =
      page fetchBlockHash addrKey l numToSkip numRequested true := by
  have hskip : min numToSkip.toNat (older ++ l).length = min numToSkip.toNat l.length := by
    rw [length_append]
    omega
  rw [page, page, hskip, if_pos rfl, if_pos rfl, reverse_append,
    drop_append_of_le_length (by rw [length_reverse]; omega),
    take_append_of_le_length (by rw [length_drop, length_reverse]; omega)]

/-- **When a page of the address index is right.**  Going forward it always is, and so it is in
reverse as long as the number to skip and the number requested add up to less than `2 ^ 32`.  If they
do not, it is right exactly if the levels that reach what is left of the sum have all the entries.
What is loaded is taken to fit 32 bits. -/
theorem fetch_exact_iff {levels : List (List Entry)} (h : Holds bucket addrKey levels)
    {numToSkip numRequested : UInt32} {reverse : Bool}
    (hfits : ∀ k, Loads levels numToSkip numRequested reverse k →
      Fits numToSkip numRequested reverse (levels.take k).flatten.length) :
    (∀ fetchBlockHash, dbFetchAddrIndexEntries fetchBlockHash bucket addrKey numToSkip numRequested
        reverse = some (page fetchBlockHash addrKey levels.reverse.flatten numToSkip numRequested
          reverse)) ↔
      (reverse = true → Reached levels numToSkip numRequested) := by
  obtain ⟨k, hk, hend, hbefore⟩ := exists_loadLevels reverse (numToSkip + numRequested).toNat
    (n := 0) (by simpa using h.count) (fun i hi => by simpa using h.get i (by omega)) []
  simp only [List.length_nil, Nat.add_zero] at hend hbefore
  have hlen : ∀ l : List (List Entry), l.reverse.flatten.length = l.flatten.length :=
    fun l => by simp [List.length_flatten]
  have hsum : ∀ (l : List (List Entry)) (k : Nat), l.flatten.length =
      (l.take k).flatten.length + (l.drop k).flatten.length := fun l k => by
    rw [← List.length_append, ← List.flatten_append, List.take_append_drop]
  have hall : levels.reverse.flatten = (levels.drop k).reverse.flatten ++
      (levels.take k).reverse.flatten := by
    rw [← List.flatten_append, ← List.reverse_append, List.take_append_drop]
  have hfit := hfits k hbefore
  have hfetch : ∀ fetch, dbFetchAddrIndexEntries fetch bucket addrKey numToSkip numRequested reverse =
      some (page fetch addrKey (levels.take k).reverse.flatten numToSkip numRequested reverse) := by
    intro fetch
    rw [dbFetchAddrIndexEntries, show loadLevels _ _ _ _ 256 [] = _ from hk, List.append_nil,
      Option.map_some, loadEntries_eq (by rwa [hlen])]
  simp only [hfetch, Option.some_inj]
  constructor
  · rintro hpage rfl hwrap j hj
    by_contra hne
    -- fewer entries have been loaded than there are
    have hkj : k ≤ j := by
      by_contra hlt
      exact absurd (hbefore j (by omega) rfl) (by omega)
    have hlt : (levels.take k).flatten.length < levels.flatten.length := by
      have hj' := hsum (levels.take j) k
      rw [List.take_take, min_eq_left hkj] at hj'
      have := hsum levels j
      omega
    have hp := hpage fun _ => .ok Hash.zero
    rw [page_of_ok, page_of_ok] at hp
    obtain ⟨hres, hnum⟩ := Prod.mk.inj (Except.ok.inj hp)
    have hres := congrArg List.length hres
    have hnum := congrArg UInt32.toNat hnum
    rw [UInt32.toNat_ofNat', UInt32.toNat_ofNat', hlen, hlen] at hnum
    simp only [List.length_map, List.length_take, List.length_drop, List.length_reverse, hlen] at hres
    have hcount := hfit.count
    have hskip := numToSkip.toNat_lt
    have hreq := numRequested.toNat_lt
    omega
  · intro hreached fetch
    rcases hend with hle | ⟨rfl, hle⟩
    · rw [List.take_of_length_le hle]
    rcases Nat.lt_or_ge (numToSkip.toNat + numRequested.toNat) (2 ^ 32) with hlt | hwrap
    · rw [UInt32.toNat_add, Nat.mod_eq_of_lt hlt] at hle
      rw [hall, page_append (by rw [hlen]; exact hle)]
    · have heq := hreached rfl hwrap k hle
      have hnil : (levels.drop k).reverse.flatten = [] := by
        have := hsum levels k
        rw [← List.length_eq_zero_iff, hlen]
        omega
      rw [hall, hnil, List.nil_append]

/-- The key of an address with two transactions. -/
def sampleKey : Bytes.Sized 21 := ⟨List.replicate 21 0, rfl⟩

/-- Its transactions, the older one first. -/
def sampleLevel : List Entry := [⟨1, ⟨81, 200⟩⟩, ⟨2, ⟨300, 250⟩⟩]

/-- Its only level. -/
def sampleBucket (key : Bytes) : Option Bytes :=
  if key = keyForLevel sampleKey 0 then some (serializeLevel sampleLevel) else none

theorem holds_sample : Holds sampleBucket sampleKey [sampleLevel] where
  count := by decide
  get := by decide +kernel

theorem fetch_exact_iff_sample :
    dbFetchAddrIndexEntries (fun _ => .ok Hash.zero) sampleBucket sampleKey 1 1 true =
      some (page (fun _ => .ok Hash.zero) sampleKey [sampleLevel].reverse.flatten 1 1 true) := by
  have hfits : ∀ k, Loads [sampleLevel] 1 1 true k →
      Fits 1 1 true ([sampleLevel].take k).flatten.length := by
    intro k _
    have hle : ([sampleLevel].take k).flatten.length ≤ 2 := by
      cases k <;> simp [sampleLevel]
    refine ⟨by omega, fun i _ _ => ?_⟩
    rw [if_pos rfl, txEntrySize]
    omega
  exact (fetch_exact_iff holds_sample hfits).2 (fun _ hwrap => absurd hwrap (by decide)) _

/-- **All but the newest transaction, in reverse: none are returned.**  The sum of the two numbers is
`2 ^ 32`, no level is loaded, and no transaction is said to have been skipped. -/
theorem fetch_nothing_of_wrap :
    dbFetchAddrIndexEntries (fun _ => .ok Hash.zero) sampleBucket sampleKey 1 4294967295 true =
        some (.ok ([], 0)) ∧
      page (fun _ => .ok Hash.zero) sampleKey [sampleLevel].reverse.flatten 1 4294967295 true =
        .ok ([⟨Hash.zero, 81, 200⟩], 1) :=
  ⟨rfl, rfl⟩

end AddrIndex

end Obtcd
