import Mathlib

namespace Crygcoin

open scoped List

/-! The peer lists of the P2P node: `PeerlistManager` keeps a white list of the peers it has talked
to and a gray list of those it has only heard of, both `std::vector`s that `Peerlist` trims to the
newest entries. An address goes to the white list when the node meets the peer, leaving the gray
list; it goes to the gray list from another node's peer list unless the white list has it. Every
list is searched by address with `std::find_if`.

`std::sort` by `last_seen`, newest first, leaves the order of equal times unspecified, so the
model takes the sort as a parameter that only promises to order the entries newest first, and every
result holds for each such sort. `time(nullptr)` is an argument. -/

/-- `NetworkAddress`: the IPv4 address in network byte order, and the port. -/
structure NetworkAddress where
  ip : UInt32
  port : UInt32
deriving DecidableEq, Repr

/-- `PeerlistEntry`. -/
structure PeerlistEntry where
  adr : NetworkAddress
  id : UInt64
  lastSeen : UInt64
deriving DecidableEq, Repr

def P2P_LOCAL_WHITE_PEERLIST_LIMIT : Nat := 1000

def P2P_LOCAL_GRAY_PEERLIST_LIMIT : Nat := 5000

/-- `P2P_DEFAULT_PEERS_IN_HANDSHAKE`, the default `depth` of `get_peerlist_head`. -/
def P2P_DEFAULT_PEERS_IN_HANDSHAKE : UInt32 := 250

/-- `hostToNetwork(n)`: the four bytes in the other order. -/
def hostToNetwork (n : UInt32) : UInt32 :=
  (n <<< 24) ||| ((n &&& 0xff00) <<< 8) ||| ((n &&& 0xff0000) >>> 8) ||| (n >>> 24)

/-- `networkToHost(n)`, the same swap. -/
def networkToHost (n : UInt32) : UInt32 :=
  hostToNetwork n

/-- `Ipv4Address::isLoopback()`: 127.0.0.0/8. -/
def Ipv4Address.isLoopback (value : UInt32) : Bool :=
  (value &&& (0xff000000 : UInt32)) == (127 : UInt32) <<< 24

/-- `Ipv4Address::isPrivate()`: 10.0.0.0/8, 172.16.0.0/12 and 192.168.0.0/16. -/
def Ipv4Address.isPrivate (value : UInt32) : Bool :=
  (value &&& (0xff000000 : UInt32)) == (10 : UInt32) <<< 24 ||
    (value &&& (0xfff00000 : UInt32)) == (((172 : UInt32) <<< 24) ||| ((16 : UInt32) <<< 16)) ||
    (value &&& (0xffff0000 : UInt32)) == (((192 : UInt32) <<< 24) ||| ((168 : UInt32) <<< 16))

/-- The `std::sort` of `Peerlist` with its comparator, newest `last_seen` first: a permutation of
the entries in that order, which may put entries of equal time in any order. -/
structure SortByLastSeen where
  sort : List PeerlistEntry → List PeerlistEntry
  perm : ∀ peers, sort peers ~ peers
  sorted : ∀ peers, (sort peers).Pairwise fun lhs rhs => lhs.lastSeen ≥ rhs.lastSeen

/-- The library's stable merge sort, one of the sorts `std::sort` may be. -/
def SortByLastSeen.mergeSort : SortByLastSeen where
  sort peers := peers.mergeSort fun lhs rhs => lhs.lastSeen ≥ rhs.lastSeen
  perm peers := List.mergeSort_perm _ _
  sorted peers := by
    have hsorted := @List.pairwise_mergeSort _ (fun lhs rhs : PeerlistEntry => decide (lhs.lastSeen ≥ rhs.lastSeen))
      (fun a b c hab hbc => by simpa using UInt64.le_trans (by simpa using hbc) (by simpa using hab))
      (fun a b => by simpa using UInt64.le_total b.lastSeen a.lastSeen) peers
    simpa using hsorted

namespace Peerlist

variable (sortBy : SortByLastSeen)

/-- `Peerlist::trim()`: beyond `maxSize` entries only the newest `maxSize` stay. -/
def trim (maxSize : Nat) (peers : List PeerlistEntry) : List PeerlistEntry :=
  if peers.length ≤ maxSize then peers
  else (sortBy.sort peers).take maxSize

/-- `Peerlist::get(entry, i)`: the `i`-th newest entry, with the list sorted in place on the way. -/
def get (peers : List PeerlistEntry) (i : Nat) : Option PeerlistEntry × List PeerlistEntry :=
  if i ≥ peers.length then (none, peers)
  else
    let sorted := sortBy.sort peers
    (sorted[i]?, sorted)

end Peerlist

/-- `PeerlistManager`: `m_allow_local_ip`, `m_peers_gray` and `m_peers_white`. -/
structure PeerlistManager where
  allowLocalIp : Bool
  peersGray : List PeerlistEntry
  peersWhite : List PeerlistEntry

namespace PeerlistManager

/-- The constructor followed by `init(allow_local_ip)`. -/
def init (allowLocalIp : Bool) : PeerlistManager :=
  ⟨allowLocalIp, [], []⟩

/-- `is_ip_allowed(ip)`: never a loopback address, a private one only when local addresses are
allowed. -/
def isIpAllowed (manager : PeerlistManager) (ip : UInt32) : Bool :=
  let addr := networkToHost ip
  if Ipv4Address.isLoopback addr then false
  else if !manager.allowLocalIp && Ipv4Address.isPrivate addr then false
  else true

variable (sortBy : SortByLastSeen)

/-- What both `append_with_peer_*` do to their list: the entry `std::find_if` finds with the
address of `newPeer` is overwritten, or `newPeer` is pushed and the list trimmed to `maxSize`. -/
def upsertPeer (maxSize : Nat) (peers : List PeerlistEntry) (newPeer : PeerlistEntry) : List PeerlistEntry :=
  match peers.findIdx? (·.adr == newPeer.adr) with
  | none => Peerlist.trim sortBy maxSize (peers ++ [newPeer])
  | some i => peers.set i newPeer

/-- `append_with_peer_white(newPeer)`: the peer goes to the white list and its address leaves the
gray list. -/
def appendWithPeerWhite (manager : PeerlistManager) (newPeer : PeerlistEntry) : PeerlistManager :=
  if !manager.isIpAllowed newPeer.adr.ip then manager
  else
    { manager with
      peersWhite := upsertPeer sortBy P2P_LOCAL_WHITE_PEERLIST_LIMIT manager.peersWhite newPeer
      peersGray := manager.peersGray.eraseP (·.adr == newPeer.adr) }

/-- `append_with_peer_gray(newPeer)`: nothing when the white list has the address; otherwise the
peer goes to the gray list. -/
def appendWithPeerGray (manager : PeerlistManager) (newPeer : PeerlistEntry) : PeerlistManager :=
  if !manager.isIpAllowed newPeer.adr.ip then manager
  else if manager.peersWhite.any (·.adr == newPeer.adr) then manager
  else { manager with peersGray := upsertPeer sortBy P2P_LOCAL_GRAY_PEERLIST_LIMIT manager.peersGray newPeer }

def trimWhitePeerlist (manager : PeerlistManager) : PeerlistManager :=
  { manager with peersWhite := Peerlist.trim sortBy P2P_LOCAL_WHITE_PEERLIST_LIMIT manager.peersWhite }

def trimGrayPeerlist (manager : PeerlistManager) : PeerlistManager :=
  { manager with peersGray := Peerlist.trim sortBy P2P_LOCAL_GRAY_PEERLIST_LIMIT manager.peersGray }

/-- `merge_peerlist(outer_bs)`: each entry to the gray list, then the gray list trimmed. -/
def mergePeerlist (manager : PeerlistManager) (outerBs : List PeerlistEntry) : PeerlistManager :=
  ((outerBs.foldl (appendWithPeerGray sortBy) manager).trimGrayPeerlist sortBy)

/-- `set_peer_just_seen(peer, addr)` at the time `now`. -/
def setPeerJustSeen (manager : PeerlistManager) (peer : UInt64) (addr : NetworkAddress) (now : UInt64) :
    PeerlistManager :=
  manager.appendWithPeerWhite sortBy ⟨addr, peer, now⟩

/-- `get_white_peer_by_index(p, i)`, which sorts the white list. -/
def getWhitePeerByIndex (manager : PeerlistManager) (i : Nat) : Option PeerlistEntry × PeerlistManager :=
  let (entry, peersWhite) := Peerlist.get sortBy manager.peersWhite i
  (entry, { manager with peersWhite })

/-- `get_gray_peer_by_index(p, i)`, which sorts the gray list. -/
def getGrayPeerByIndex (manager : PeerlistManager) (i : Nat) : Option PeerlistEntry × PeerlistManager :=
  let (entry, peersGray) := Peerlist.get sortBy manager.peersGray i
  (entry, { manager with peersGray })

/-- The loop of `get_peerlist_head` over the sorted white list with its counter `i`: a peer never
seen is skipped; every other is pushed, and the loop stops after pushing one when `i > depth`. -/
def getPeerlistHeadLoop (depth : UInt32) : UInt32 → List PeerlistEntry → List PeerlistEntry
  | _, [] => []
  | i, peer :: peers =>
    if peer.lastSeen = 0 then getPeerlistHeadLoop depth i peers
    else if i > depth then [peer]
    else peer :: getPeerlistHeadLoop depth (i + 1) peers

/-- `get_peerlist_head(bs_head, depth)`: the entries pushed onto `bs_head`, and the manager with
its white list sorted. -/
def getPeerlistHead (manager : PeerlistManager) (depth : UInt32) : List PeerlistEntry × PeerlistManager :=
  let peersWhite := sortBy.sort manager.peersWhite
  (getPeerlistHeadLoop depth 0 peersWhite, { manager with peersWhite })

end PeerlistManager

/-- `fixTimeDelta(peerlist, remoteTime)` of `P2pNode` at the local time `now`: an entry seen after
the remote node's time throws; the others are moved by the difference of the clocks, `last_seen`
as `uint64_t` plus the `int64_t` delta. -/
def fixTimeDelta (peerlist : List PeerlistEntry) (remoteTime now : Int64) : Option (List PeerlistEntry) :=
  let delta := now - remoteTime
  peerlist.mapM fun be =>
    if be.lastSeen > remoteTime.toUInt64 then none
    else some { be with lastSeen := be.lastSeen + delta.toUInt64 }

def PeerlistManager.handleRemotePeerList (sortBy : SortByLastSeen) (manager : PeerlistManager)
    (peerlist : List PeerlistEntry) (remoteTime now : Int64) : Option PeerlistManager :=
  (fixTimeDelta peerlist remoteTime now).map (manager.mergePeerlist sortBy)

section Lists

variable {α β : Type} {f : α → β}

theorem nodup_map_of_subperm {l₁ l₂ : List α} (h : l₁ <+~ l₂) (hnodup : (l₂.map f).Nodup) : (l₁.map f).Nodup := by
  obtain ⟨l, hperm, hsublist⟩ := h
  exact (hperm.map f).nodup_iff.mp ((hsublist.map f).nodup hnodup)

theorem map_set_findIdx? [DecidableEq β] {l : List α} {x : α} {i : Nat}
    (hfind : l.findIdx? (f · == f x) = some i) : (l.set i x).map f = l.map f := by
  obtain ⟨hi, hkey, -⟩ := List.findIdx?_eq_some_iff_getElem.mp hfind
  have hlength : i < (l.map f).length := by simpa using hi
  have hsame : (l.map f)[i] = f x := by
    rw [List.getElem_map]
    exact beq_iff_eq.mp hkey
  rw [List.map_set, ← hsame, List.set_getElem_self]

theorem key_ne_of_mem_eraseP [DecidableEq β] {l : List α} {k : β} (hnodup : (l.map f).Nodup) {y : α}
    (hy : y ∈ l.eraseP (f · == k)) : f y ≠ k := by
  rcases List.exists_or_eq_self_of_eraseP (f · == k) l with hsame | ⟨a, before, after, hbefore, hkey, hsplit, herased⟩
  · -- no element has the key
    rw [hsame] at hy
    intro hyk
    have hnone := List.eraseP_eq_self_iff.mp hsame y hy
    simp [hyk] at hnone
  · rw [herased] at hy
    rw [hsplit, List.map_append, List.map_cons, List.nodup_append] at hnodup
    intro hyk
    rcases List.mem_append.mp hy with hy | hy
    · exact hbefore y hy (by simp [hyk])
    · -- the erased element had the key, and the keys after it differ from its key
      have hfa : f a = k := by simpa using hkey
      exact (List.nodup_cons.mp hnodup.2.1).1 (hfa ▸ hyk ▸ List.mem_map_of_mem hy)

end Lists

namespace Peerlist

variable {sortBy : SortByLastSeen}

theorem trim_subperm (maxSize : Nat) (peers : List PeerlistEntry) : trim sortBy maxSize peers <+~ peers := by
  unfold trim
  split
  · exact List.Subperm.refl _
  · exact (List.take_sublist _ _).subperm.trans (sortBy.perm peers).subperm

theorem trim_of_length_le {maxSize : Nat} {peers : List PeerlistEntry} (hlength : peers.length ≤ maxSize) :
    trim sortBy maxSize peers = peers :=
  if_pos hlength

theorem length_trim_le (maxSize : Nat) (peers : List PeerlistEntry) : (trim sortBy maxSize peers).length ≤ maxSize := by
  unfold trim
  split
  · assumption
  · exact (List.length_take_le _ _)

theorem get_perm (peers : List PeerlistEntry) (i : Nat) : (get sortBy peers i).2 ~ peers := by
  unfold get
  split
  · exact List.Perm.refl _
  · exact sortBy.perm peers

theorem mem_trim_of_newest {maxSize : Nat} {peers : List PeerlistEntry} {newest : UInt64}
    (hle : ∀ peer ∈ peers, peer.lastSeen ≤ newest)
    (hcount : (peers.filter (·.lastSeen = newest)).length ≤ maxSize)
    {peer : PeerlistEntry} (hpeer : peer ∈ peers) (hnewest : peer.lastSeen = newest) :
    peer ∈ trim sortBy maxSize peers := by
  unfold trim
  split
  · exact hpeer
  · have hperm := sortBy.perm peers
    obtain ⟨before, after, hsplit⟩ := List.append_of_mem (hperm.mem_iff.mpr hpeer)
    -- the entries sorted before it are at least as new, so as new
    have hbefore : ∀ b ∈ before, b.lastSeen = newest := by
      have hsorted := sortBy.sorted peers
      rw [hsplit, List.pairwise_append] at hsorted
      intro b hb
      have hb' : b ∈ peers := hperm.subset (hsplit ▸ List.mem_append_left _ hb)
      exact UInt64.le_antisymm (hle b hb') (hnewest ▸ hsorted.2.2 b hb peer List.mem_cons_self)
    have hroom : before.length < maxSize := by
      have hfilter := (hperm.filter fun peer : PeerlistEntry => decide (peer.lastSeen = newest)).length_eq
      rw [hsplit, List.filter_append, List.filter_eq_self.mpr (by simpa using hbefore),
        List.filter_cons_of_pos (by simpa using hnewest)] at hfilter
      simp only [List.length_append, List.length_cons] at hfilter
      omega
    obtain ⟨k, hk⟩ : ∃ k, maxSize - before.length = k + 1 := ⟨maxSize - before.length - 1, by omega⟩
    rw [hsplit, List.take_append, hk, List.take_succ_cons]
    exact List.mem_append_right _ List.mem_cons_self

end Peerlist

namespace PeerlistManager

/-- What every manager the node reaches satisfies: an address is at most once in each list and
never in both, the lists keep to their limits, and `is_ip_allowed` accepts every address. -/
structure Wellformed (manager : PeerlistManager) : Prop where
  whiteNodup : (manager.peersWhite.map (·.adr)).Nodup
  grayNodup : (manager.peersGray.map (·.adr)).Nodup
  disjoint : ∀ white ∈ manager.peersWhite, ∀ gray ∈ manager.peersGray, white.adr ≠ gray.adr
  whiteLength : manager.peersWhite.length ≤ P2P_LOCAL_WHITE_PEERLIST_LIMIT
  grayLength : manager.peersGray.length ≤ P2P_LOCAL_GRAY_PEERLIST_LIMIT
  allowed : ∀ peer ∈ manager.peersWhite ++ manager.peersGray, manager.isIpAllowed peer.adr.ip = true

variable {sortBy : SortByLastSeen} {manager : PeerlistManager}

theorem init_wellformed (allowLocalIp : Bool) : (init allowLocalIp).Wellformed :=
  ⟨List.nodup_nil, List.nodup_nil, by simp [init], by simp [init, P2P_LOCAL_WHITE_PEERLIST_LIMIT],
    by simp [init, P2P_LOCAL_GRAY_PEERLIST_LIMIT], by simp [init]⟩

theorem Wellformed.shrink (h : manager.Wellformed) {peersWhite peersGray : List PeerlistEntry}
    (hwhite : peersWhite <+~ manager.peersWhite) (hgray : peersGray <+~ manager.peersGray) :
    { manager with peersWhite, peersGray }.Wellformed where
  whiteNodup := nodup_map_of_subperm hwhite h.whiteNodup
  grayNodup := nodup_map_of_subperm hgray h.grayNodup
  disjoint white hw gray hg := h.disjoint white (hwhite.subset hw) gray (hgray.subset hg)
  whiteLength := hwhite.length_le.trans h.whiteLength
  grayLength := hgray.length_le.trans h.grayLength
  allowed peer hpeer := by
    rcases List.mem_append.mp hpeer with hpeer | hpeer
    · exact h.allowed peer (List.mem_append_left _ (hwhite.subset hpeer))
    · exact h.allowed peer (List.mem_append_right _ (hgray.subset hpeer))

theorem upsertPeer_spec {peers : List PeerlistEntry} {maxSize : Nat} (newPeer : PeerlistEntry)
    (hnodup : (peers.map (·.adr)).Nodup) (hlength : peers.length ≤ maxSize) :
    ((upsertPeer sortBy maxSize peers newPeer).map (·.adr)).Nodup ∧ (upsertPeer sortBy maxSize peers newPeer).length ≤ maxSize ∧
      ∀ peer ∈ upsertPeer sortBy maxSize peers newPeer, peer = newPeer ∨ peer ∈ peers := by
  unfold upsertPeer
  cases hfind : peers.findIdx? (·.adr == newPeer.adr) with
  | none =>
    have hnew : ∀ peer ∈ peers, peer.adr ≠ newPeer.adr := fun peer hpeer hsame => by
      simpa [hsame] using List.findIdx?_eq_none_iff.mp hfind peer hpeer
    have hsubperm := @Peerlist.trim_subperm sortBy maxSize (peers ++ [newPeer])
    refine ⟨nodup_map_of_subperm hsubperm ?_, Peerlist.length_trim_le _ _, fun peer hpeer => ?_⟩
    · -- the pushed address is new
      rw [List.map_append, List.nodup_append]
      refine ⟨hnodup, List.nodup_singleton _, ?_⟩
      simp only [List.mem_map, List.map_cons, List.map_nil, List.mem_singleton]
      rintro _ ⟨peer, hpeer, rfl⟩ _ rfl
      exact hnew peer hpeer
    · rcases List.mem_append.mp (hsubperm.subset hpeer) with hpeer | hpeer
      · exact .inr hpeer
      · exact .inl (List.mem_singleton.mp hpeer)
  | some i =>
    refine ⟨by rw [map_set_findIdx? hfind]; exact hnodup, by rw [List.length_set]; exact hlength, fun peer hpeer => ?_⟩
    exact (List.mem_or_eq_of_mem_set hpeer).symm

theorem Wellformed.appendWithPeerWhite (h : manager.Wellformed) (newPeer : PeerlistEntry) :
    (manager.appendWithPeerWhite sortBy newPeer).Wellformed := by
  unfold PeerlistManager.appendWithPeerWhite
  split
  · exact h
  · rename_i hallowed
    have hok : manager.isIpAllowed newPeer.adr.ip = true := by simpa using hallowed
    obtain ⟨hnodup, hlength, hmem⟩ := upsertPeer_spec newPeer h.whiteNodup h.whiteLength
    have hgray : manager.peersGray.eraseP (·.adr == newPeer.adr) <+ manager.peersGray := List.eraseP_sublist
    constructor
    · exact hnodup
    · exact (hgray.map _).nodup h.grayNodup
    · -- the gray list no longer has the new address
      intro white hwhite gray hgray'
      rcases hmem white hwhite with rfl | hwhite
      · exact (key_ne_of_mem_eraseP h.grayNodup hgray').symm
      · exact h.disjoint white hwhite gray (hgray.subset hgray')
    · exact hlength
    · exact List.length_eraseP_le.trans h.grayLength
    · intro peer hpeer
      rcases List.mem_append.mp hpeer with hpeer | hpeer
      · rcases hmem peer hpeer with rfl | hpeer
        · exact hok
        · exact h.allowed peer (List.mem_append_left _ hpeer)
      · exact h.allowed peer (List.mem_append_right _ (hgray.subset hpeer))

theorem Wellformed.appendWithPeerGray (h : manager.Wellformed) (newPeer : PeerlistEntry) :
    (manager.appendWithPeerGray sortBy newPeer).Wellformed := by
  unfold PeerlistManager.appendWithPeerGray
  split
  · exact h
  · split
    · exact h
    · rename_i hallowed hwhite
      have hok : manager.isIpAllowed newPeer.adr.ip = true := by simpa using hallowed
      obtain ⟨hnodup, hlength, hmem⟩ := upsertPeer_spec newPeer h.grayNodup h.grayLength
      constructor
      · exact h.whiteNodup
      · exact hnodup
      · -- the white list does not have the new address
        intro white hwhite' gray hgray
        rcases hmem gray hgray with rfl | hgray
        · intro hsame
          exact hwhite (List.any_eq_true.mpr ⟨white, hwhite', by simp [hsame]⟩)
        · exact h.disjoint white hwhite' gray hgray
      · exact h.whiteLength
      · exact hlength
      · intro peer hpeer
        rcases List.mem_append.mp hpeer with hpeer | hpeer
        · exact h.allowed peer (List.mem_append_left _ hpeer)
        · rcases hmem peer hpeer with rfl | hpeer
          · exact hok
          · exact h.allowed peer (List.mem_append_right _ hpeer)

theorem Wellformed.trimWhitePeerlist (h : manager.Wellformed) : (manager.trimWhitePeerlist sortBy).Wellformed :=
  h.shrink (Peerlist.trim_subperm _ _) (List.Subperm.refl _)

theorem Wellformed.trimGrayPeerlist (h : manager.Wellformed) : (manager.trimGrayPeerlist sortBy).Wellformed :=
  h.shrink (List.Subperm.refl _) (Peerlist.trim_subperm _ _)

theorem Wellformed.foldl_appendWithPeerGray (h : manager.Wellformed) (outerBs : List PeerlistEntry) :
    (outerBs.foldl (PeerlistManager.appendWithPeerGray sortBy) manager).Wellformed := by
  induction outerBs generalizing manager with
  | nil => exact h
  | cons newPeer outerBs ih => exact ih (h.appendWithPeerGray newPeer)

theorem Wellformed.mergePeerlist (h : manager.Wellformed) (outerBs : List PeerlistEntry) :
    (manager.mergePeerlist sortBy outerBs).Wellformed :=
  (h.foldl_appendWithPeerGray outerBs).trimGrayPeerlist

theorem Wellformed.handleRemotePeerList (h : manager.Wellformed) {peerlist : List PeerlistEntry}
    {remoteTime now : Int64} {manager' : PeerlistManager}
    (hhandle : manager.handleRemotePeerList sortBy peerlist remoteTime now = some manager') : manager'.Wellformed := by
  obtain ⟨fixed, -, rfl⟩ := Option.map_eq_some_iff.mp hhandle
  exact h.mergePeerlist fixed

theorem Wellformed.getWhitePeerByIndex (h : manager.Wellformed) (i : Nat) :
    (manager.getWhitePeerByIndex sortBy i).2.Wellformed :=
  h.shrink (Peerlist.get_perm _ i).subperm (List.Subperm.refl _)

theorem Wellformed.getGrayPeerByIndex (h : manager.Wellformed) (i : Nat) :
    (manager.getGrayPeerByIndex sortBy i).2.Wellformed :=
  h.shrink (List.Subperm.refl _) (Peerlist.get_perm _ i).subperm

theorem Wellformed.getPeerlistHead (h : manager.Wellformed) (depth : UInt32) :
    (manager.getPeerlistHead sortBy depth).2.Wellformed :=
  h.shrink (sortBy.perm _).subperm (List.Subperm.refl _)

end PeerlistManager

/-- What the node does to its peer lists: add a peer it met or heard of, merge another node's
list (as is, or through `fixTimeDelta`), read a peer by index or the head of the white list (each
sorts a list), and trim. -/
inductive PeerlistStep (sortBy : SortByLastSeen) : PeerlistManager → PeerlistManager → Prop
  | appendWithPeerWhite (newPeer : PeerlistEntry) {manager : PeerlistManager} :
      PeerlistStep sortBy manager (manager.appendWithPeerWhite sortBy newPeer)
  | appendWithPeerGray (newPeer : PeerlistEntry) {manager : PeerlistManager} :
      PeerlistStep sortBy manager (manager.appendWithPeerGray sortBy newPeer)
  | mergePeerlist (outerBs : List PeerlistEntry) {manager : PeerlistManager} :
      PeerlistStep sortBy manager (manager.mergePeerlist sortBy outerBs)
  | handleRemotePeerList {manager manager' : PeerlistManager} {peerlist : List PeerlistEntry} {remoteTime now : Int64} :
      manager.handleRemotePeerList sortBy peerlist remoteTime now = some manager' → PeerlistStep sortBy manager manager'
  | setPeerJustSeen (peer : UInt64) (addr : NetworkAddress) (now : UInt64) {manager : PeerlistManager} :
      PeerlistStep sortBy manager (manager.setPeerJustSeen sortBy peer addr now)
  | getWhitePeerByIndex (i : Nat) {manager : PeerlistManager} :
      PeerlistStep sortBy manager (manager.getWhitePeerByIndex sortBy i).2
  | getGrayPeerByIndex (i : Nat) {manager : PeerlistManager} :
      PeerlistStep sortBy manager (manager.getGrayPeerByIndex sortBy i).2
  | getPeerlistHead (depth : UInt32) {manager : PeerlistManager} :
      PeerlistStep sortBy manager (manager.getPeerlistHead sortBy depth).2
  | trimWhitePeerlist {manager : PeerlistManager} : PeerlistStep sortBy manager (manager.trimWhitePeerlist sortBy)
  | trimGrayPeerlist {manager : PeerlistManager} : PeerlistStep sortBy manager (manager.trimGrayPeerlist sortBy)

/-- The managers the node reaches from `init` by any sequence of its peer-list operations. -/
inductive PeerlistReachable (sortBy : SortByLastSeen) : PeerlistManager → Prop
  | init (allowLocalIp : Bool) : PeerlistReachable sortBy (PeerlistManager.init allowLocalIp)
  | step {manager manager' : PeerlistManager} :
      PeerlistReachable sortBy manager → PeerlistStep sortBy manager manager' → PeerlistReachable sortBy manager'

theorem PeerlistStep.wellformed {sortBy : SortByLastSeen} {manager manager' : PeerlistManager}
    (hstep : PeerlistStep sortBy manager manager')
    (h : manager.Wellformed) : manager'.Wellformed := by
  cases hstep with
  | appendWithPeerWhite newPeer => exact h.appendWithPeerWhite newPeer
  | appendWithPeerGray newPeer => exact h.appendWithPeerGray newPeer
  | mergePeerlist outerBs => exact h.mergePeerlist outerBs
  | handleRemotePeerList hhandle => exact h.handleRemotePeerList hhandle
  | setPeerJustSeen peer addr now => exact h.appendWithPeerWhite _
  | getWhitePeerByIndex i => exact h.getWhitePeerByIndex i
  | getGrayPeerByIndex i => exact h.getGrayPeerByIndex i
  | getPeerlistHead depth => exact h.getPeerlistHead depth
  | trimWhitePeerlist => exact h.trimWhitePeerlist
  | trimGrayPeerlist => exact h.trimGrayPeerlist

theorem PeerlistReachable.wellformed {sortBy : SortByLastSeen} {manager : PeerlistManager}
    (h : PeerlistReachable sortBy manager) :
    manager.Wellformed := by
  induction h with
  | init allowLocalIp => exact PeerlistManager.init_wellformed allowLocalIp
  | step _ hstep ih => exact hstep.wellformed ih

/-- Every manager the node reaches is well formed: each list holds an address at most once, no
address is on both lists, the white list keeps to 1000 entries and the gray list to 5000, and
`is_ip_allowed` accepts every address. -/
theorem peerlistReachable_wellformed {sortBy : SortByLastSeen} {manager : PeerlistManager}
    (h : PeerlistReachable sortBy manager) :
    (manager.peersWhite.map (·.adr)).Nodup ∧ (manager.peersGray.map (·.adr)).Nodup ∧
      (∀ white ∈ manager.peersWhite, ∀ gray ∈ manager.peersGray, white.adr ≠ gray.adr) ∧
      manager.peersWhite.length ≤ P2P_LOCAL_WHITE_PEERLIST_LIMIT ∧
      manager.peersGray.length ≤ P2P_LOCAL_GRAY_PEERLIST_LIMIT ∧
      ∀ peer ∈ manager.peersWhite ++ manager.peersGray, manager.isIpAllowed peer.adr.ip = true := by
  obtain ⟨hwhiteNodup, hgrayNodup, hdisjoint, hwhiteLength, hgrayLength, hallowed⟩ := h.wellformed
  exact ⟨hwhiteNodup, hgrayNodup, hdisjoint, hwhiteLength, hgrayLength, hallowed⟩

/-- Three public peers met at the times 100, 200 and 300. -/
def threePeersSeen : PeerlistManager :=
  (((PeerlistManager.init false).setPeerJustSeen .mergeSort 1 ⟨0x01010101, 8080⟩ 100).setPeerJustSeen .mergeSort 2
    ⟨0x02020202, 8080⟩ 200).setPeerJustSeen .mergeSort 3 ⟨0x03030303, 8080⟩ 300

/-- `threePeersSeen` after it merges a list that names the first peer again and two new ones, and
meets the second new one at the time 400: it leaves the gray list for the white one. -/
def peersMetAndHeard : PeerlistManager :=
  (threePeersSeen.mergePeerlist .mergeSort
    [⟨⟨0x01010101, 8080⟩, 1, 150⟩, ⟨⟨0x05050505, 8080⟩, 5, 50⟩, ⟨⟨0x06060606, 8080⟩, 6, 60⟩]).setPeerJustSeen
    .mergeSort 6 ⟨0x06060606, 8080⟩ 400

theorem peersMetAndHeard_reachable : PeerlistReachable .mergeSort peersMetAndHeard :=
  .step (.step (.step (.step (.step (.init false) (.setPeerJustSeen 1 _ 100)) (.setPeerJustSeen 2 _ 200))
    (.setPeerJustSeen 3 _ 300)) (.mergePeerlist _)) (.setPeerJustSeen 6 _ 400)

theorem peerlistReachable_wellformed_metAndHeard :
    PeerlistReachable .mergeSort peersMetAndHeard ∧ peersMetAndHeard.peersWhite.map (·.lastSeen) = [100, 200, 300, 400] ∧
      peersMetAndHeard.peersGray = [⟨⟨0x05050505, 8080⟩, 5, 50⟩] ∧
      (peersMetAndHeard.peersWhite.map (·.adr)).Nodup ∧ (peersMetAndHeard.peersGray.map (·.adr)).Nodup ∧
      (∀ white ∈ peersMetAndHeard.peersWhite, ∀ gray ∈ peersMetAndHeard.peersGray, white.adr ≠ gray.adr) ∧
      peersMetAndHeard.peersWhite.length ≤ P2P_LOCAL_WHITE_PEERLIST_LIMIT ∧
      peersMetAndHeard.peersGray.length ≤ P2P_LOCAL_GRAY_PEERLIST_LIMIT ∧
      ∀ peer ∈ peersMetAndHeard.peersWhite ++ peersMetAndHeard.peersGray, peersMetAndHeard.isIpAllowed peer.adr.ip = true :=
  ⟨peersMetAndHeard_reachable, by decide, by decide, peerlistReachable_wellformed peersMetAndHeard_reachable⟩

namespace PeerlistManager

theorem getPeerlistHeadLoop_eq {depth : UInt32} :
    ∀ (i : UInt32) (peers : List PeerlistEntry), i.toNat ≤ depth.toNat + 1 →
      i.toNat + (peers.filter (·.lastSeen ≠ 0)).length < 2 ^ 32 →
      getPeerlistHeadLoop depth i peers = (peers.filter (·.lastSeen ≠ 0)).take (depth.toNat + 2 - i.toNat)
  | i, [], _, _ => by simp [getPeerlistHeadLoop]
  | i, peer :: peers, hi, hbound => by
    by_cases hseen : peer.lastSeen = 0
    · have hfilter : (peer :: peers).filter (·.lastSeen ≠ 0) = peers.filter (·.lastSeen ≠ 0) := by simp [hseen]
      rw [hfilter] at hbound ⊢
      rw [getPeerlistHeadLoop, if_pos hseen]
      exact getPeerlistHeadLoop_eq i peers hi hbound
    · have hfilter : (peer :: peers).filter (·.lastSeen ≠ 0) = peer :: peers.filter (·.lastSeen ≠ 0) := by
        simp [hseen]
      rw [hfilter, List.length_cons] at hbound
      rw [hfilter, getPeerlistHeadLoop, if_neg hseen]
      by_cases hlast : i > depth
      · -- the counter has passed `depth`: this push is the last
        have hdone : i.toNat = depth.toNat + 1 := by
          rw [gt_iff_lt, UInt32.lt_iff_toNat_lt] at hlast
          omega
        rw [if_pos hlast, hdone, show depth.toNat + 2 - (depth.toNat + 1) = 0 + 1 by omega, List.take_succ_cons,
          List.take_zero]
      · have hle : i.toNat ≤ depth.toNat := by
          rw [gt_iff_lt, UInt32.lt_iff_toNat_lt] at hlast
          omega
        have hsucc : (i + 1).toNat = i.toNat + 1 := by
          rw [UInt32.toNat_add, UInt32.toNat_one]
          exact Nat.mod_eq_of_lt (by omega)
        rw [if_neg hlast, getPeerlistHeadLoop_eq (i + 1) peers (by omega) (by omega), hsucc,
          show depth.toNat + 2 - i.toNat = depth.toNat + 2 - (i.toNat + 1) + 1 by omega, List.take_succ_cons]

/-- `get_peerlist_head(bs_head, depth)` on any manager the node reaches, whatever order the sort
gives entries of equal time, pushes `depth + 2` of the white peers that have been seen (all of them
when there are fewer), newest first, and none it leaves out is newer than one it pushes: two more
than `depth`, so 252 for the default `P2P_DEFAULT_PEERS_IN_HANDSHAKE`. -/
theorem getPeerlistHead_newest {sortBy : SortByLastSeen} {manager : PeerlistManager}
    (h : PeerlistReachable sortBy manager) (depth : UInt32) :
    let head := (manager.getPeerlistHead sortBy depth).1
    let seen := manager.peersWhite.filter (·.lastSeen ≠ 0)
    head <+~ seen ∧ head.length = min (depth.toNat + 2) seen.length ∧
      head.Pairwise (fun lhs rhs => lhs.lastSeen ≥ rhs.lastSeen) ∧
      ∀ peer ∈ head, ∀ other ∈ seen, other ∉ head → other.lastSeen ≤ peer.lastSeen := by
  intro head seen
  let sorted := (sortBy.sort manager.peersWhite).filter (·.lastSeen ≠ 0)
  have hperm : sorted ~ seen := (sortBy.perm _).filter _
  have hsorted : sorted.Pairwise (fun lhs rhs => lhs.lastSeen ≥ rhs.lastSeen) :=
    (sortBy.sorted _).sublist List.filter_sublist
  -- the white list has at most 1000 peers, so the counter never wraps
  have hbound : sorted.length < 2 ^ 32 := by
    show ((sortBy.sort manager.peersWhite).filter (·.lastSeen ≠ 0)).length < 2 ^ 32
    have hwhite := h.wellformed.whiteLength
    have hlength := (List.length_filter_le (fun peer : PeerlistEntry => decide (peer.lastSeen ≠ 0))
      (sortBy.sort manager.peersWhite)).trans_eq (sortBy.perm _).length_eq
    unfold P2P_LOCAL_WHITE_PEERLIST_LIMIT at hwhite
    omega
  have hhead : head = sorted.take (depth.toNat + 2) := by
    show getPeerlistHeadLoop depth 0 (sortBy.sort manager.peersWhite) = _
    rw [getPeerlistHeadLoop_eq 0 _ (by simp) (by simpa [sorted] using hbound)]
    simp [sorted]
  refine ⟨?_, ?_, ?_, fun peer hpeer other hother hout => ?_⟩
  · rw [hhead]
    exact (List.take_sublist _ _).subperm.trans hperm.subperm
  · rw [hhead, List.length_take, hperm.length_eq]
  · rw [hhead]
    exact hsorted.sublist (List.take_sublist _ _)
  · -- what the loop leaves out comes after what it pushes in the sorted list
    rw [← List.take_append_drop (depth.toNat + 2) sorted] at hsorted
    have hdrop : other ∈ sorted.drop (depth.toNat + 2) := by
      have hmem := hperm.mem_iff.mpr hother
      rw [← List.take_append_drop (depth.toNat + 2) sorted] at hmem
      exact (List.mem_append.mp hmem).resolve_left (hhead ▸ hout)
    exact (List.pairwise_append.mp hsorted).2.2 peer (hhead ▸ hpeer) other hdrop

/-- Of the four white peers of `peersMetAndHeard`, `get_peerlist_head` with `depth` 1 pushes the
three newest and leaves out the one of the time 100. -/
theorem getPeerlistHead_newest_metAndHeard :
    PeerlistReachable .mergeSort peersMetAndHeard ∧
      (peersMetAndHeard.getPeerlistHead .mergeSort 1).1.map (·.lastSeen) = [400, 300, 200] ∧
      let head := (peersMetAndHeard.getPeerlistHead .mergeSort 1).1
      let seen := peersMetAndHeard.peersWhite.filter (·.lastSeen ≠ 0)
      head <+~ seen ∧ head.length = min (UInt32.toNat 1 + 2) seen.length ∧
        head.Pairwise (fun lhs rhs => lhs.lastSeen ≥ rhs.lastSeen) ∧
        ∀ peer ∈ head, ∀ other ∈ seen, other ∉ head → other.lastSeen ≤ peer.lastSeen := by
  have hwhite : peersMetAndHeard.peersWhite = [⟨⟨0x01010101, 8080⟩, 1, 100⟩, ⟨⟨0x02020202, 8080⟩, 2, 200⟩,
      ⟨⟨0x03030303, 8080⟩, 3, 300⟩, ⟨⟨0x06060606, 8080⟩, 6, 400⟩] := by
    decide
  -- `List.mergeSort` is not structural, so the sort is evaluated by its equations
  have hhead : (peersMetAndHeard.getPeerlistHead .mergeSort 1).1.map (·.lastSeen) = [400, 300, 200] := by
    simp [getPeerlistHead, hwhite, SortByLastSeen.mergeSort, List.mergeSort, getPeerlistHeadLoop]
  exact ⟨peersMetAndHeard_reachable, hhead, getPeerlistHead_newest peersMetAndHeard_reachable 1⟩

end PeerlistManager

theorem fixTimeDelta_of_never_seen {peerlist : List PeerlistEntry} {now d : Int64}
    (hnever : ∀ peer ∈ peerlist, peer.lastSeen = 0) :
    fixTimeDelta peerlist (now + d) now = some (peerlist.map ({ · with lastSeen := (-d).toUInt64 })) := by
  have hdelta : now - (now + d) = -d := by grind
  unfold fixTimeDelta
  induction peerlist with
  | nil => rfl
  | cons peer peers ih =>
    rw [List.mapM_cons, ih fun other hother => hnever other (List.mem_cons_of_mem _ hother)]
    simp [hnever peer List.mem_cons_self, hdelta]

namespace PeerlistManager

variable {sortBy : SortByLastSeen} {manager : PeerlistManager} {newest : UInt64}

theorem appendWithPeerGray_newest {newPeer : PeerlistEntry}
    (hallowed : manager.isIpAllowed newPeer.adr.ip = true)
    (hfresh : ∀ known ∈ manager.peersWhite ++ manager.peersGray, known.adr ≠ newPeer.adr)
    (hnewest : newPeer.lastSeen = newest) (hle : ∀ gray ∈ manager.peersGray, gray.lastSeen ≤ newest)
    (hcount : (manager.peersGray.filter (·.lastSeen = newest)).length < P2P_LOCAL_GRAY_PEERLIST_LIMIT) :
    (manager.appendWithPeerGray sortBy newPeer).peersWhite = manager.peersWhite ∧
      (manager.appendWithPeerGray sortBy newPeer).allowLocalIp = manager.allowLocalIp ∧
      (∀ gray ∈ manager.peersGray ++ [newPeer], gray.lastSeen = newest → gray ∈ (manager.appendWithPeerGray sortBy newPeer).peersGray) ∧
      ∀ gray ∈ (manager.appendWithPeerGray sortBy newPeer).peersGray, gray ∈ manager.peersGray ++ [newPeer] := by
  have hwhite : manager.peersWhite.any (·.adr == newPeer.adr) = false :=
    List.any_eq_false.mpr fun known hknown => by simpa using hfresh known (List.mem_append_left _ hknown)
  have hnone : manager.peersGray.findIdx? (·.adr == newPeer.adr) = none :=
    List.findIdx?_eq_none_iff.mpr fun known hknown => by simpa using hfresh known (List.mem_append_right _ hknown)
  have hpush : (manager.appendWithPeerGray sortBy newPeer).peersGray =
      Peerlist.trim sortBy P2P_LOCAL_GRAY_PEERLIST_LIMIT (manager.peersGray ++ [newPeer]) := by
    simp [appendWithPeerGray, hallowed, hwhite, upsertPeer, hnone]
  have hsame : manager.appendWithPeerGray sortBy newPeer = { manager with peersGray := (manager.appendWithPeerGray sortBy newPeer).peersGray } := by
    simp [appendWithPeerGray, hallowed, hwhite]
  refine ⟨by rw [hsame], by rw [hsame], fun gray hgray hgrayNewest => ?_, fun gray hgray => ?_⟩
  · rw [hpush]
    refine Peerlist.mem_trim_of_newest ?_ ?_ hgray hgrayNewest
    · intro peer hpeer
      rcases List.mem_append.mp hpeer with hpeer | hpeer
      · exact hle peer hpeer
      · rw [List.mem_singleton.mp hpeer, hnewest]
        exact UInt64.le_refl _
    · rw [List.filter_append, List.filter_singleton, List.length_append]
      simp only [hnewest, decide_true, cond_true, List.length_singleton]
      omega
  · rw [hpush] at hgray
    exact (Peerlist.trim_subperm _ _).subset hgray

/-- The run of `append_with_peer_gray` in `merge_peerlist` over entries of the newest time with new,
distinct addresses: after the entries `placed` so far, the gray list holds them and, besides, only
what it held. -/
theorem foldl_appendWithPeerGray_newest (original : PeerlistManager)
    (hold : ∀ gray ∈ original.peersGray, gray.lastSeen < newest) :
    ∀ (rest placed : List PeerlistEntry) (manager : PeerlistManager), manager.Wellformed →
      manager.peersWhite = original.peersWhite → manager.allowLocalIp = original.allowLocalIp →
      (∀ peer ∈ placed, peer ∈ manager.peersGray) →
      (∀ gray ∈ manager.peersGray, gray ∈ original.peersGray ∨ gray ∈ placed) →
      (∀ peer ∈ placed ++ rest, peer.lastSeen = newest) →
      ((placed ++ rest).map (·.adr)).Nodup →
      (∀ peer ∈ rest, original.isIpAllowed peer.adr.ip = true ∧
        ∀ known ∈ original.peersWhite ++ original.peersGray, known.adr ≠ peer.adr) →
      placed.length + rest.length ≤ P2P_LOCAL_GRAY_PEERLIST_LIMIT →
      (∀ peer ∈ placed ++ rest, peer ∈ (rest.foldl (appendWithPeerGray sortBy) manager).peersGray) ∧
        ∀ gray ∈ (rest.foldl (appendWithPeerGray sortBy) manager).peersGray, gray ∈ original.peersGray ∨ gray ∈ placed ++ rest
  | [], placed, manager, _, _, _, hplaced, hgray, _, _, _, _ => by
    simpa using ⟨hplaced, hgray⟩
  | newPeer :: rest, placed, manager, h, hwhite, hallowLocalIp, hplaced, hgray, hnewest, hnodup, hfresh, hroom => by
    have hnewPeer := hfresh newPeer List.mem_cons_self
    -- the new address is none of the old lists' and none of the placed entries'
    have hknown : ∀ known ∈ manager.peersWhite ++ manager.peersGray, known.adr ≠ newPeer.adr := by
      intro known hknown
      rcases List.mem_append.mp hknown with hknown | hknown
      · exact hnewPeer.2 known (List.mem_append_left _ (hwhite ▸ hknown))
      · rcases hgray known hknown with hknown | hknown
        · exact hnewPeer.2 known (List.mem_append_right _ hknown)
        · intro hsame
          rw [List.map_append, List.map_cons, List.nodup_append] at hnodup
          exact hnodup.2.2 _ (List.mem_map_of_mem hknown) _ List.mem_cons_self hsame
    -- the entries of the newest time in the gray list are placed ones
    have hcount : (manager.peersGray.filter (·.lastSeen = newest)).length < P2P_LOCAL_GRAY_PEERLIST_LIMIT := by
      have hsubset : manager.peersGray.filter (·.lastSeen = newest) ⊆ placed := by
        intro gray hmem
        rw [List.mem_filter] at hmem
        rcases hgray gray hmem.1 with hold' | hplaced'
        · exact absurd (of_decide_eq_true hmem.2) (UInt64.ne_of_lt (hold gray hold'))
        · exact hplaced'
      have hlength := (List.subperm_of_subset ((h.grayNodup.of_map _).filter _) hsubset).length_le
      simp only [List.length_cons] at hroom
      omega
    obtain ⟨hwhite', hallowLocalIp', hkept, hfrom⟩ := appendWithPeerGray_newest
      (by rw [show manager.isIpAllowed = original.isIpAllowed by unfold isIpAllowed; rw [hallowLocalIp]]; exact hnewPeer.1)
      hknown (hnewest newPeer (by simp)) (fun gray hgray' => by
        rcases hgray gray hgray' with hold' | hplaced'
        · exact UInt64.le_of_lt (hold gray hold')
        · exact UInt64.le_of_eq (hnewest gray (List.mem_append_left _ hplaced'))) hcount
    have hrest := foldl_appendWithPeerGray_newest original hold rest (placed ++ [newPeer]) (manager.appendWithPeerGray sortBy newPeer)
      (h.appendWithPeerGray newPeer) (hwhite'.trans hwhite) (hallowLocalIp'.trans hallowLocalIp)
      (fun peer hpeer => hkept peer (by
          rcases List.mem_append.mp hpeer with hpeer | hpeer
          · exact List.mem_append_left _ (hplaced peer hpeer)
          · exact List.mem_append_right _ hpeer)
        (hnewest peer (by simp only [List.mem_append, List.mem_cons] at hpeer ⊢; tauto)))
      (fun gray hgray' => by
        rcases List.mem_append.mp (hfrom gray hgray') with hgray' | hgray'
        · rcases hgray gray hgray' with hold' | hplaced'
          · exact .inl hold'
          · exact .inr (List.mem_append_left _ hplaced')
        · exact .inr (List.mem_append_right _ hgray'))
      (by simpa using hnewest) (by simpa using hnodup)
      (fun peer hpeer => hfresh peer (List.mem_cons_of_mem _ hpeer)) (by simp at hroom ⊢; omega)
    simpa using hrest

/-- A node whose clock runs `d` ahead can plant, in another node's gray list, entries it has never
seen: `fixTimeDelta` lets their `last_seen` of 0 through and moves it to `0 + (now - remoteTime)`,
which wraps to `2^64 - d`, later than every entry the list held. Up to 5000 such entries with new,
distinct, allowed addresses all stay in the list after `merge_peerlist`, the newest there. -/
theorem handleRemotePeerList_plants_newest (h : PeerlistReachable sortBy manager) {peerlist : List PeerlistEntry}
    {now d : Int64} (hcount : peerlist.length ≤ P2P_LOCAL_GRAY_PEERLIST_LIMIT)
    (hnodup : (peerlist.map (·.adr)).Nodup)
    (hfresh : ∀ peer ∈ peerlist, manager.isIpAllowed peer.adr.ip = true ∧
      ∀ known ∈ manager.peersWhite ++ manager.peersGray, known.adr ≠ peer.adr)
    (hnever : ∀ peer ∈ peerlist, peer.lastSeen = 0)
    (hold : ∀ gray ∈ manager.peersGray, gray.lastSeen < (-d).toUInt64) :
    ∃ manager', manager.handleRemotePeerList sortBy peerlist (now + d) now = some manager' ∧
      (∀ peer ∈ peerlist, { peer with lastSeen := (-d).toUInt64 } ∈ manager'.peersGray) ∧
      ∀ gray ∈ manager'.peersGray, gray.lastSeen ≤ (-d).toUInt64 := by
  have hwellformed := h.wellformed
  let planted := peerlist.map ({ · with lastSeen := (-d).toUInt64 })
  obtain ⟨hkept, hfrom⟩ := foldl_appendWithPeerGray_newest manager hold planted [] manager hwellformed rfl rfl
    (by simp) (fun gray hgray => .inl hgray) (by simp [planted])
    (by simpa [planted, List.map_map, Function.comp_def] using hnodup)
    (by simpa [planted] using hfresh) (by simpa [planted] using hcount)
  -- the gray list is within its limit already, so the trim of merge_peerlist keeps it
  have hmerged : (manager.mergePeerlist sortBy planted).peersGray =
      (planted.foldl (appendWithPeerGray sortBy) manager).peersGray :=
    Peerlist.trim_of_length_le (hwellformed.foldl_appendWithPeerGray planted).grayLength
  refine ⟨manager.mergePeerlist sortBy planted, by simp [handleRemotePeerList, fixTimeDelta_of_never_seen hnever, planted],
    fun peer hpeer => ?_, fun gray hgray => ?_⟩
  · rw [hmerged]
    exact hkept _ (List.mem_append_right [] (List.mem_map_of_mem hpeer))
  · rw [hmerged] at hgray
    rcases hfrom gray hgray with hgray | hgray
    · exact UInt64.le_of_lt (hold gray hgray)
    · simp only [List.nil_append, planted, List.mem_map] at hgray
      obtain ⟨peer, -, rfl⟩ := hgray
      exact UInt64.le_refl _

/-- A peer the node never saw, at a new public address. -/
def neverSeenPeer : PeerlistEntry := ⟨⟨0x04040404, 8080⟩, 4, 0⟩

/-- A peer whose clock runs 1000 seconds ahead plants `neverSeenPeer` in the gray list of
`peersMetAndHeard`, above its entry of the time 50, at the time `2^64 - 1000`. -/
theorem handleRemotePeerList_plants_newest_skewed :
    PeerlistReachable .mergeSort peersMetAndHeard ∧ [neverSeenPeer].length ≤ P2P_LOCAL_GRAY_PEERLIST_LIMIT ∧
      ([neverSeenPeer].map (·.adr)).Nodup ∧
      (∀ peer ∈ [neverSeenPeer], peersMetAndHeard.isIpAllowed peer.adr.ip = true ∧
        ∀ known ∈ peersMetAndHeard.peersWhite ++ peersMetAndHeard.peersGray, known.adr ≠ peer.adr) ∧
      (∀ peer ∈ [neverSeenPeer], peer.lastSeen = 0) ∧
      (∀ gray ∈ peersMetAndHeard.peersGray, gray.lastSeen < (-1000 : Int64).toUInt64) ∧
      ∃ manager', peersMetAndHeard.handleRemotePeerList .mergeSort [neverSeenPeer] (5000 + 1000) 5000 = some manager' ∧
        (∀ peer ∈ [neverSeenPeer], { peer with lastSeen := (-1000 : Int64).toUInt64 } ∈ manager'.peersGray) ∧
        ∀ gray ∈ manager'.peersGray, gray.lastSeen ≤ (-1000 : Int64).toUInt64 := by
  have hcount : [neverSeenPeer].length ≤ P2P_LOCAL_GRAY_PEERLIST_LIMIT := by decide
  have hnodup : ([neverSeenPeer].map (·.adr)).Nodup := by decide
  have hfresh : ∀ peer ∈ [neverSeenPeer], peersMetAndHeard.isIpAllowed peer.adr.ip = true ∧
      ∀ known ∈ peersMetAndHeard.peersWhite ++ peersMetAndHeard.peersGray, known.adr ≠ peer.adr := by
    decide
  have hnever : ∀ peer ∈ [neverSeenPeer], peer.lastSeen = 0 := by decide
  have hold : ∀ gray ∈ peersMetAndHeard.peersGray, gray.lastSeen < (-1000 : Int64).toUInt64 := by decide
  exact ⟨peersMetAndHeard_reachable, hcount, hnodup, hfresh, hnever, hold,
    handleRemotePeerList_plants_newest peersMetAndHeard_reachable hcount hnodup hfresh hnever hold⟩

example : (-1000 : Int64).toUInt64 = 18446744073709550616 := by decide

end PeerlistManager

end Crygcoin
