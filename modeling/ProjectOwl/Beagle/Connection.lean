import Mathlib.Data.Finset.Card
import ProjectOwl.Bytes
import ProjectOwl.Lib.Machine

/-! # The links of the tracker

`init_conn` of `beagle/owl.c` over the descriptors the process has open and the
endpoints their sockets are connected to, with `create_server` of `beagle/tcp.c`.
It is called with an endpoint, and connects to the KISS server of the board
whatever that endpoint is; when `connect` fails the socket stays open.
`inet_addr` is a parameter, and the texts printed are left out. -/

set_option autoImplicit false

namespace ProjectOwl.Beagle

def KISSPORT : Int := 8001
def LOCALHOST : List UInt8 := ascii "127.0.0.1"

def CAMERAPORT : Int := 8080
def CAMERAIP : List UInt8 := ascii "192.168.8.10"

def AF_INET : Nat := 2

/-- The low 16 bits of the argument, their two bytes swapped. -/
def htons (port : Int) : Nat :=
  let hostshort := (port % 65536).toNat
  hostshort % 256 * 256 + hostshort / 256

structure SockaddrIn where
  sinFamily : Nat
  sinPort : Nat
  sinAddr : UInt32
  deriving DecidableEq, Repr

def createServer (inetAddr : List UInt8 → UInt32) (port : Int) (addressString : List UInt8) :
    SockaddrIn :=
  ⟨AF_INET, htons port, inetAddr addressString⟩

/-- The descriptors of the process, and whom the socket of each is connected to. -/
structure Net where
  descriptors : Finset Nat
  peers : Nat → Option SockaddrIn

/-! ## System calls -/

/-- The descriptor the next `socket` returns. -/
def lowestUnused (descriptors : Finset Nat) : Nat :=
  ((List.range (descriptors.card + 1)).find? fun fd => fd ∉ descriptors).getD 0

def Net.fresh (net : Net) : Nat := lowestUnused net.descriptors

/-- One more socket, connected to `peer` if there is one. -/
def Net.opened (net : Net) (peer : Option SockaddrIn) : Net :=
  ⟨insert net.fresh net.descriptors, Function.update net.peers net.fresh peer⟩

def createTcpSocket (succeeds : Bool) (net : Net) : Int × Net :=
  if succeeds then (net.fresh, net.opened none) else (-1, net)

def connect (succeeds : Bool) (fd : Int) (server : SockaddrIn) (net : Net) : Int × Net :=
  if succeeds then (0, { net with peers := Function.update net.peers fd.toNat (some server) })
  else (-1, net)

structure ConnOutcome where
  socket : Bool
  connect : Bool
  deriving DecidableEq, Repr

/-- `init_conn`; its arguments only show in what it prints. -/
def initConn (inetAddr : List UInt8 → UInt32) (outcome : ConnOutcome) (_port : Int)
    (_addr : List UInt8) (net : Net) : Int × Net :=
  let (fd, net) := createTcpSocket outcome.socket net
  if fd < 0 then (-1, net)
  else
    let server := createServer inetAddr KISSPORT LOCALHOST
    let (result, net) := connect outcome.connect fd server net
    if result < 0 then (-1, net) else (fd, net)

/-! ## What one call does -/

theorem lowestUnused_notMem (descriptors : Finset Nat) :
    lowestUnused descriptors ∉ descriptors := by
  unfold lowestUnused
  cases found : (List.range (descriptors.card + 1)).find? fun fd => fd ∉ descriptors with
  | none =>
      have fewer : descriptors.card < (Finset.range (descriptors.card + 1)).card := by
        rw [Finset.card_range]
        exact Nat.lt_succ_self _
      obtain ⟨fd, inRange, unused⟩ := Finset.exists_mem_notMem_of_card_lt_card fewer
      have taken := List.find?_eq_none.mp found fd (List.mem_range.mpr (Finset.mem_range.mp inRange))
      exact absurd unused (by simpa using taken)
  | some fd => simpa using List.find?_some found

theorem Net.fresh_notMem (net : Net) : net.fresh ∉ net.descriptors :=
  lowestUnused_notMem net.descriptors

@[simp] theorem Net.opened_peer (net : Net) (peer : Option SockaddrIn) :
    (net.opened peer).peers net.fresh = peer :=
  Function.update_self ..

theorem Net.opened_peer_other (net : Net) (peer : Option SockaddrIn) (fd : Nat)
    (used : fd ∈ net.descriptors) : (net.opened peer).peers fd = net.peers fd := by
  have other : fd ≠ net.fresh := fun same => net.fresh_notMem (same ▸ used)
  exact Function.update_of_ne other ..

section Call
variable (inetAddr : List UInt8 → UInt32) (outcome : ConnOutcome) (port : Int) (addr : List UInt8)
  (net : Net)

theorem initConn_refused (refused : outcome.socket = false) :
    initConn inetAddr outcome port addr net = (-1, net) := by
  simp [initConn, createTcpSocket, refused]

/-- The socket of a failed `connect` stays open. -/
theorem initConn_unconnected (opened : outcome.socket = true) (fails : outcome.connect = false) :
    initConn inetAddr outcome port addr net = (-1, net.opened none) := by
  have nonneg : ¬(net.fresh : Int) < 0 := by omega
  simp [initConn, createTcpSocket, connect, opened, fails, nonneg]

theorem initConn_connected (opened : outcome.socket = true) (connected : outcome.connect = true) :
    initConn inetAddr outcome port addr net =
      ((net.fresh : Int), net.opened (some (createServer inetAddr KISSPORT LOCALHOST))) := by
  have nonneg : ¬(net.fresh : Int) < 0 := by omega
  simp [initConn, createTcpSocket, connect, opened, connected, nonneg, Net.opened]

theorem createServer_eq_kiss_iff :
    createServer inetAddr KISSPORT LOCALHOST = createServer inetAddr port addr ↔
      port % 65536 = 8001 ∧ inetAddr addr = inetAddr LOCALHOST := by
  have ports : htons KISSPORT = htons port ↔ port % 65536 = 8001 := by
    simp only [htons, KISSPORT]
    omega
  simp only [createServer, SockaddrIn.mk.injEq, true_and, ports]
  exact and_congr_right fun _ => eq_comm

end Call

/-! ## A run of calls -/

structure ConnCall where
  port : Int
  addr : List UInt8
  outcome : ConnOutcome

/-- The endpoint a call was given, and what it returned. -/
structure ConnLink where
  requested : SockaddrIn
  result : Int

structure ConnSession where
  net : Net
  links : List ConnLink

def ConnSession.start (net : Net) : ConnSession := ⟨net, []⟩

def ConnCall.requested (inetAddr : List UInt8 → UInt32) (call : ConnCall) : SockaddrIn :=
  createServer inetAddr call.port call.addr

def ConnSession.call (inetAddr : List UInt8 → UInt32) (s : ConnSession) (call : ConnCall) :
    ConnSession :=
  let (result, net) := initConn inetAddr call.outcome call.port call.addr s.net
  ⟨net, s.links ++ [⟨call.requested inetAddr, result⟩]⟩

/-- Every descriptor returned is connected to the endpoint its call was given,
and what is open was open before or was returned. -/
structure ConnSession.Honest (before : Finset Nat) (s : ConnSession) : Prop where
  connected : ∀ link ∈ s.links, 0 ≤ link.result →
    s.net.peers link.result.toNat = some link.requested
  accounted : ∀ fd ∈ s.net.descriptors, fd ∈ before ∨ ∃ link ∈ s.links, link.result = fd

/-- What one call owes its caller: a socket connected where it was told, or none. -/
def ConnCall.Kept (inetAddr : List UInt8 → UInt32) (s : ConnSession) (call : ConnCall) : Prop :=
  let run := initConn inetAddr call.outcome call.port call.addr s.net
  (0 ≤ run.1 → run.2.peers run.1.toNat = some (call.requested inetAddr)) ∧
    (run.1 = -1 → run.2.descriptors = s.net.descriptors)

/-- The descriptors returned are open, and connected to the endpoint meant by
their call. -/
structure ConnSession.Linked (meant : ConnLink → SockaddrIn) (s : ConnSession) : Prop where
  connected : ∀ link ∈ s.links, 0 ≤ link.result →
    s.net.peers link.result.toNat = some (meant link)
  inUse : ∀ link ∈ s.links, 0 ≤ link.result → link.result.toNat ∈ s.net.descriptors

structure ConnSession.Sound (before : Finset Nat) (s : ConnSession) : Prop
    extends s.Linked ConnLink.requested where
  accounted : ∀ fd ∈ s.net.descriptors, fd ∈ before ∨ ∃ link ∈ s.links, link.result = fd

theorem ConnSession.Sound.honest {before : Finset Nat} {s : ConnSession}
    (sound : s.Sound before) : s.Honest before :=
  ⟨sound.connected, sound.accounted⟩

/-- No socket, or a connection to the KISS endpoint that was asked for. -/
def ConnCall.Reaches (inetAddr : List UInt8 → UInt32) (call : ConnCall) : Prop :=
  call.outcome.socket = true →
    call.outcome.connect = true ∧ call.port % 65536 = 8001 ∧
      inetAddr call.addr = inetAddr LOCALHOST

section Links
variable {meant : ConnLink → SockaddrIn} {s : ConnSession}

theorem start_linked (net : Net) : (ConnSession.start net).Linked meant where
  connected _ member := absurd member List.not_mem_nil
  inUse _ member := absurd member List.not_mem_nil

theorem returned_before {requested : SockaddrIn} {link : ConnLink}
    (member : link ∈ s.links ++ [⟨requested, -1⟩]) (returned : 0 ≤ link.result) :
    link ∈ s.links := by
  rcases List.mem_append.mp member with old | new
  · exact old
  · have negative : ¬(0 : Int) ≤ -1 := by decide
    rw [List.mem_singleton.mp new] at returned
    exact absurd returned negative

theorem linked_refused (linked : s.Linked meant) (requested : SockaddrIn) :
    ConnSession.Linked meant ⟨s.net, s.links ++ [⟨requested, -1⟩]⟩ where
  connected link member returned :=
    linked.connected link (returned_before member returned) returned
  inUse link member returned := linked.inUse link (returned_before member returned) returned

theorem linked_unconnected (linked : s.Linked meant) (requested : SockaddrIn) :
    ConnSession.Linked meant ⟨s.net.opened none, s.links ++ [⟨requested, -1⟩]⟩ where
  connected link member returned := by
    have old := returned_before member returned
    rw [s.net.opened_peer_other none _ (linked.inUse link old returned)]
    exact linked.connected link old returned
  inUse link member returned :=
    Finset.mem_insert_of_mem (linked.inUse link (returned_before member returned) returned)

theorem linked_connected (linked : s.Linked meant) (requested peer : SockaddrIn)
    (intended : meant ⟨requested, s.net.fresh⟩ = peer) :
    ConnSession.Linked meant
      ⟨s.net.opened (some peer), s.links ++ [⟨requested, s.net.fresh⟩]⟩ where
  connected link member returned := by
    rcases List.mem_append.mp member with old | new
    · rw [s.net.opened_peer_other _ _ (linked.inUse link old returned)]
      exact linked.connected link old returned
    · rw [List.mem_singleton.mp new, Int.toNat_natCast, intended]
      exact s.net.opened_peer _
  inUse link member returned := by
    rcases List.mem_append.mp member with old | new
    · exact Finset.mem_insert_of_mem (linked.inUse link old returned)
    · rw [List.mem_singleton.mp new, Int.toNat_natCast]
      exact Finset.mem_insert_self _ _

end Links

section Calls
variable (inetAddr : List UInt8 → UInt32) {before : Finset Nat} {s : ConnSession} (call : ConnCall)

theorem call_refused (refused : call.outcome.socket = false) :
    s.call inetAddr call = ⟨s.net, s.links ++ [⟨call.requested inetAddr, -1⟩]⟩ := by
  simp [ConnSession.call, initConn_refused _ _ _ _ _ refused]

theorem call_unconnected (opened : call.outcome.socket = true)
    (fails : call.outcome.connect = false) :
    s.call inetAddr call =
      ⟨s.net.opened none, s.links ++ [⟨call.requested inetAddr, -1⟩]⟩ := by
  simp [ConnSession.call, initConn_unconnected _ _ _ _ _ opened fails]

theorem call_connected (opened : call.outcome.socket = true)
    (connected : call.outcome.connect = true) :
    s.call inetAddr call =
      ⟨s.net.opened (some (createServer inetAddr KISSPORT LOCALHOST)),
        s.links ++ [⟨call.requested inetAddr, s.net.fresh⟩]⟩ := by
  simp [ConnSession.call, initConn_connected _ _ _ _ _ opened connected]

/-- Whatever a call is given, the descriptor it returns is a link to the KISS server. -/
theorem call_linked_kiss
    (linked : s.Linked fun _ => createServer inetAddr KISSPORT LOCALHOST) :
    (s.call inetAddr call).Linked fun _ => createServer inetAddr KISSPORT LOCALHOST := by
  cases opened : call.outcome.socket with
  | false =>
      rw [call_refused inetAddr call opened]
      exact linked_refused linked _
  | true =>
      cases connected : call.outcome.connect with
      | false =>
          rw [call_unconnected inetAddr call opened connected]
          exact linked_unconnected linked _
      | true =>
          rw [call_connected inetAddr call opened connected]
          exact linked_connected linked _ _ rfl

theorem connStart_sound (net : Net) : (ConnSession.start net).Sound net.descriptors where
  toLinked := start_linked net
  accounted _ member := Or.inl member

theorem refused_sound (sound : s.Sound before) (requested : SockaddrIn) :
    ConnSession.Sound before ⟨s.net, s.links ++ [⟨requested, -1⟩]⟩ where
  toLinked := linked_refused sound.toLinked requested
  accounted fd member := by
    rcases sound.accounted fd member with old | ⟨link, inLinks, same⟩
    · exact Or.inl old
    · exact Or.inr ⟨link, List.mem_append_left _ inLinks, same⟩

theorem connected_sound (sound : s.Sound before) (requested : SockaddrIn) :
    ConnSession.Sound before
      ⟨s.net.opened (some requested), s.links ++ [⟨requested, s.net.fresh⟩]⟩ where
  toLinked := linked_connected sound.toLinked requested requested rfl
  accounted fd member := by
    rcases Finset.mem_insert.mp member with new | old
    · have added := List.mem_append_right s.links
        (List.mem_singleton_self (⟨requested, s.net.fresh⟩ : ConnLink))
      exact Or.inr ⟨_, added, congrArg Nat.cast new.symm⟩
    · rcases sound.accounted fd old with earlier | ⟨link, inLinks, same⟩
      · exact Or.inl earlier
      · exact Or.inr ⟨link, List.mem_append_left _ inLinks, same⟩

theorem reaches_keeps (sound : s.Sound before) (reaches : call.Reaches inetAddr) :
    (s.call inetAddr call).Sound before ∧ call.Kept inetAddr s := by
  cases opened : call.outcome.socket with
  | false =>
      rw [call_refused inetAddr call opened]
      refine ⟨refused_sound sound _, ?_⟩
      simp [ConnCall.Kept, initConn_refused _ _ _ _ _ opened]
  | true =>
      obtain ⟨connected, endpoint⟩ := reaches opened
      have requested : createServer inetAddr KISSPORT LOCALHOST = call.requested inetAddr :=
        (createServer_eq_kiss_iff inetAddr call.port call.addr).mpr endpoint
      rw [call_connected inetAddr call opened connected, requested]
      refine ⟨connected_sound sound _, ?_⟩
      simp only [ConnCall.Kept, initConn_connected _ _ _ _ _ opened connected, requested,
        Int.toNat_natCast, Net.opened_peer, implies_true, true_and]
      intro negative
      omega

/-- A call that does not leaks its socket or connects elsewhere. -/
theorem not_reaches_breaks (astray : ¬call.Reaches inetAddr) : ¬call.Kept inetAddr s := by
  rintro ⟨endpoint, closed⟩
  apply astray
  intro opened
  cases connected : call.outcome.connect with
  | false =>
      simp only [initConn_unconnected _ _ _ _ _ opened connected, true_implies] at closed
      have member : s.net.fresh ∈ (s.net.opened none).descriptors := Finset.mem_insert_self _ _
      rw [closed] at member
      exact absurd member s.net.fresh_notMem
  | true =>
      simp only [initConn_connected _ _ _ _ _ opened connected, Int.toNat_natCast,
        Net.opened_peer, Option.some.injEq] at endpoint
      have requested := endpoint (Int.natCast_nonneg _)
      exact ⟨rfl, (createServer_eq_kiss_iff inetAddr call.port call.addr).mp requested⟩

end Calls

open Machine

/-- After any calls all the links of the tracker are links to one endpoint. -/
theorem run_linked_kiss (inetAddr : List UInt8 → UInt32) (net : Net) (calls : List ConnCall) :
    (run (ConnSession.call inetAddr) (.start net) calls).Linked fun _ =>
      createServer inetAddr KISSPORT LOCALHOST := by
  have kept : ∀ s : ConnSession, s.Linked (fun _ => createServer inetAddr KISSPORT LOCALHOST) →
      (run (ConnSession.call inetAddr) s calls).Linked fun _ =>
        createServer inetAddr KISSPORT LOCALHOST := by
    induction calls with
    | nil => exact fun _ linked => linked
    | cons call rest ih => exact fun s linked => ih _ (call_linked_kiss inetAddr call linked)
  exact kept _ (start_linked net)

/-- A run of `init_conn` calls is honest throughout exactly when no call that
gets a socket asks for another endpoint than the KISS server or fails to connect. -/
theorem initConn_honest_iff (inetAddr : List UInt8 → UInt32) (net : Net) (calls : List ConnCall) :
    Along (ConnSession.call inetAddr) (ConnSession.Honest net.descriptors)
        (fun s call => call.Kept inetAddr s) (.start net) calls ↔
      ∀ call ∈ calls, call.outcome.socket = true →
        call.outcome.connect = true ∧ call.port % 65536 = 8001 ∧
          inetAddr call.addr = inetAddr LOCALHOST := by
  have settled : Along (ConnSession.call inetAddr) (ConnSession.Honest net.descriptors)
      (fun s call => call.Kept inetAddr s) (.start net) calls ↔
        Each (ConnSession.call inetAddr) (fun _ call => call.Reaches inetAddr) (.start net)
          calls := by
    apply along_iff_each (ConnSession.Sound net.descriptors) fun _ _ => True
    · exact fun s sound => sound.honest
    · exact fun s call sound _ reaches => reaches_keeps inetAddr call sound reaches
    · exact fun s call _ _ astray kept => absurd kept (not_reaches_breaks inetAddr call astray)
    · exact connStart_sound net
    · exact each_of_forall _ (fun _ _ => trivial) _ calls
  rw [settled]
  exact each_iff_forall _ (ConnCall.Reaches inetAddr) _ calls

/-! ## The two links of `main` -/

def mainCalls (camera radio : ConnOutcome) : List ConnCall :=
  [⟨CAMERAPORT, CAMERAIP, camera⟩, ⟨KISSPORT, LOCALHOST, radio⟩]

/-- The two addresses of `main` as `inet_addr` reads them. -/
def mainAddresses (text : List UInt8) : UInt32 :=
  if text = CAMERAIP then 0x0A08A8C0 else if text = LOCALHOST then 0x0100007F else 0xFFFFFFFF

/-- Both links of `main` come up, the one for the camera at the KISS server. -/
theorem main_camera_link_astray :
    ¬Along (ConnSession.call mainAddresses) (ConnSession.Honest {0, 1, 2})
      (fun s call => call.Kept mainAddresses s) (.start ⟨{0, 1, 2}, fun _ => none⟩)
      (mainCalls ⟨true, true⟩ ⟨true, true⟩) := by
  intro along
  have endpoint := along.2.1.1 (by decide)
  exact absurd endpoint (by decide)

end ProjectOwl.Beagle
