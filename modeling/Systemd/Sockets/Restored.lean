import Systemd.Sockets.Manned
import Systemd.Sockets.Survive

set_option autoImplicit false

namespace Systemd.Sockets

open List Option Function

open Serialization (ItemKey)

section

variable {cfg : Config} {network : Network} {duplicates : Duplicates}

def copyPorts (duplicates : Duplicates) :
    List SocketPort -> Finset Nat -> Option (List SocketPort × Finset Nat)
  | [], fds => some ([], fds)
  | port :: rest, fds =>
    match port.fd with
    | none => (copyPorts duplicates rest fds).map fun made => (loadedPort port.listen :: made.1, made.2)
    | some fd =>
      (duplicates.copy fds fd).bind fun copy =>
        (copyPorts duplicates rest (insert copy fds)).map fun made =>
          ({ listen := port.listen, fd := some copy } :: made.1, made.2)

def copiesOf (ports : List SocketPort) : List Nat := ports.filterMap SocketPort.fd

def SocketPort.shape (port : SocketPort) : Listen × Bool := (port.listen, port.fd.isSome)

structure Copied (ports copied : List SocketPort) (fds fds' : Finset Nat) : Prop where
  shapes : copied.map SocketPort.shape = ports.map SocketPort.shape
  unwatched : ∀ port ∈ copied, port.watched = false
  different : (copiesOf copied).Nodup
  new : ∀ copy ∈ copiesOf copied, copy ∉ fds ∧ copy < 2 ^ 31
  descriptors : ∀ fd, fd ∈ fds' ↔ fd ∈ fds ∨ fd ∈ copiesOf copied

theorem copied_ports {ports copied : List SocketPort} {fds fds' : Finset Nat}
    (made : copyPorts duplicates ports fds = some (copied, fds')) : Copied ports copied fds fds' := by
  induction ports generalizing fds copied with
  | nil =>
    cases made
    exact ⟨rfl, by simp, by simp [copiesOf], by simp [copiesOf], by simp [copiesOf]⟩
  | cons port rest ih =>
    unfold copyPorts at made
    split at made
    next closed =>
      obtain ⟨⟨restCopied, restFds⟩, restMade, same⟩ := map_eq_some_iff.mp made
      cases same
      have later := ih restMade
      refine ⟨?_, ?_, ?_, ?_, ?_⟩
      · rw [map_cons, map_cons, later.shapes, SocketPort.shape, SocketPort.shape, closed]
        rfl
      · exact forall_mem_cons.mpr ⟨rfl, later.unwatched⟩
      · exact later.different
      · exact later.new
      · exact later.descriptors
    next fd opened =>
      obtain ⟨copy, duplicated, rest'⟩ := bind_eq_some_iff.mp made
      obtain ⟨⟨restCopied, restFds⟩, restMade, same⟩ := map_eq_some_iff.mp rest'
      cases same
      have later := ih restMade
      have unused := duplicates.unused fds fd copy duplicated
      have small := duplicates.small fds fd copy duplicated
      refine ⟨?_, ?_, ?_, ?_, ?_⟩
      · rw [map_cons, map_cons, later.shapes, SocketPort.shape, SocketPort.shape, opened]
        rfl
      · exact forall_mem_cons.mpr ⟨rfl, later.unwatched⟩
      · exact nodup_cons.mpr ⟨fun mem => (later.new copy mem).1 (by simp), later.different⟩
      · refine forall_mem_cons.mpr ⟨⟨unused, small⟩, fun other mem => ?_⟩
        have fresh := later.new other mem
        exact ⟨fun old => fresh.1 (Finset.mem_insert_of_mem old), fresh.2⟩
      · intro other
        show other ∈ restFds ↔ other ∈ fds ∨ other ∈ copy :: copiesOf restCopied
        rw [later.descriptors other, Finset.mem_insert, mem_cons]
        tauto

def itemOf (network : Network) (port : SocketPort) : Option (ItemKey × CString) :=
  port.fd.bind fun copy =>
    (portText network port.listen).map fun item => (item.1, portValue copy item.2)

theorem portText_some {listen : Listen} (written : ∀ path, listen ≠ .mqueue path) :
    (portText network listen).isSome = true := by
  cases listen with
  | fifo | special => rfl
  | mqueue path => exact absurd rfl (written path)
  | socket address valid raw =>
    obtain ⟨sockaddr, type⟩ := address
    cases sockaddr <;> simp [portText, socketAddressPrint, valid]

theorem serializePorts_made {ports copied : List SocketPort} {fds fds' : Finset Nat}
    (made : copyPorts duplicates ports fds = some (copied, fds'))
    (written : ∀ port ∈ ports, port.fd.isSome = true -> (portText network port.listen).isSome = true) :
    serializePorts network duplicates ports fds = .ok (copied.filterMap (itemOf network), fds') := by
  induction ports generalizing fds copied with
  | nil =>
    cases made
    rfl
  | cons port rest ih =>
    obtain ⟨here, others⟩ := forall_mem_cons.mp written
    unfold copyPorts at made
    unfold serializePorts
    cases opened : port.fd with
    | none =>
      rw [opened] at made
      obtain ⟨⟨restCopied, restFds⟩, restMade, same⟩ := map_eq_some_iff.mp made
      cases same
      simp only
      rw [ih restMade others]
      rfl
    | some fd =>
      rw [opened] at made
      obtain ⟨copy, duplicated, rest'⟩ := bind_eq_some_iff.mp made
      obtain ⟨⟨restCopied, restFds⟩, restMade, same⟩ := map_eq_some_iff.mp rest'
      cases same
      obtain ⟨⟨key, text⟩, printed⟩ := isSome_iff_exists.mp (here (by simp [opened]))
      simp only [duplicated, printed]
      rw [ih restMade others]
      simp [Except.map, itemOf, printed]

theorem serializePorts_written {ports : List SocketPort} {fds : Finset Nat}
    {result : List (ItemKey × CString) × Finset Nat}
    (serialized : serializePorts network duplicates ports fds = .ok result) :
    ∀ port ∈ ports, port.fd.isSome = true -> (portText network port.listen).isSome = true := by
  induction ports generalizing fds result with
  | nil => simp
  | cons port rest ih =>
    unfold serializePorts at serialized
    split at serialized
    next closed => exact forall_mem_cons.mpr ⟨by simp [closed], ih serialized⟩
    next fd opened =>
      split at serialized
      next => cases serialized
      next => cases serialized
      next copy key text duplicated printed =>
        obtain ⟨more, restSerialized, -⟩ := map_eq_ok serialized
        exact forall_mem_cons.mpr ⟨fun _ => by simp [printed], ih restSerialized⟩

def restorePort (network : Network) (state : Restoring) (port : SocketPort) : Restoring :=
  match port.fd with
  | none => state
  | some copy => claimFd (writtenFits network port.listen) (Int32.ofNat copy) state

theorem socketDeserialize_items {copied : List SocketPort}
    (written : ∀ port ∈ copied, port.fd.isSome = true -> (portText network port.listen).isSome = true)
    (small : ∀ copy ∈ copiesOf copied, copy < 2 ^ 31) (state : Restoring) :
    socketDeserialize cfg network (copied.filterMap (itemOf network)) state =
      copied.foldl (restorePort network) state := by
  induction copied generalizing state with
  | nil => rfl
  | cons port rest ih =>
    obtain ⟨here, others⟩ := forall_mem_cons.mp written
    cases opened : port.fd with
    | none =>
      have copies : copiesOf (port :: rest) = copiesOf rest := by simp [copiesOf, opened]
      rw [copies] at small
      have nothing : itemOf network port = none := by simp [itemOf, opened]
      rw [filterMap_cons_none nothing, foldl_cons, restorePort, opened]
      exact ih others small state
    | some copy =>
      have copies : copiesOf (port :: rest) = copy :: copiesOf rest := by simp [copiesOf, opened]
      rw [copies] at small
      obtain ⟨first, later⟩ := forall_mem_cons.mp small
      obtain ⟨⟨key, text⟩, printed⟩ := isSome_iff_exists.mp (here (by simp [opened]))
      have item : itemOf network port = some (key, portValue copy text) := by
        simp [itemOf, opened, printed]
      have step : socketDeserializeItem cfg network key.text (portValue copy text) state =
          claimFd (writtenFits network port.listen) (Int32.ofNat copy) state :=
        item_written printed first state
      rw [filterMap_cons_some item, foldl_cons, restorePort, opened, socketDeserialize,
        foldl_cons]
      rw [step]
      exact ih others later _

def Restoring.claim (state : Restoring) (ports : List SocketPort) (copy : Nat) : Restoring where
  socket := { state.socket with ports := ports }
  fds := state.fds.erase copy

theorem claimFd_number {copy : Nat} (small : copy < 2 ^ 31) (fits : Listen -> Bool) (state : Restoring) :
    claimFd fits (Int32.ofNat copy) state =
      if copy ∈ state.fds then
        ((claimFirst fits copy state.socket.ports).map fun ports => state.claim ports copy).getD state
      else state := by
  have value : (Int32.ofNat copy).toInt = copy := Int32.toInt_ofNat_of_lt small
  have positive : ¬ Int32.ofNat copy < 0 := by
    rw [Int32.lt_iff_toInt_lt, value]
    simp
  have number : (Int32.ofNat copy).toInt.toNat = copy := by rw [value, Int.toNat_natCast]
  unfold claimFd
  rw [number]
  by_cases present : copy ∈ state.fds
  next =>
    rw [if_neg (by simp [positive, present]), if_pos present]
    cases claimFirst fits copy state.socket.ports <;> rfl
  next => rw [if_pos (.inr present), if_neg present]

theorem claimFirst_append {fits : Listen -> Bool} {before : List SocketPort} {port : SocketPort}
    (passed : ∀ other ∈ before, fits other.listen = false) (here : fits port.listen = true) (fd : Nat)
    (after : List SocketPort) :
    claimFirst fits fd (before ++ port :: after) = some (before ++ { port with fd := some fd } :: after) := by
  induction before with
  | nil => rw [nil_append, claimFirst, if_pos here, nil_append]
  | cons other rest ih =>
    obtain ⟨first, later⟩ := forall_mem_cons.mp passed
    rw [cons_append, claimFirst, if_neg (by simp [first]), ih later]
    rfl

structure SelfFound (network : Network) (before : List SocketPort) (port : SocketPort) : Prop where
  passed : ∀ other ∈ before, writtenFits network port.listen other.listen = false
  here : writtenFits network port.listen port.listen = true

theorem restore_ports {done rest : List SocketPort} {state : Restoring}
    (ports : state.socket.ports = done ++ rest.map fun port => loadedPort port.listen)
    (unwatched : ∀ port ∈ rest, port.watched = false)
    (different : (copiesOf rest).Nodup)
    (known : ∀ copy ∈ copiesOf rest, copy ∈ state.fds ∧ copy < 2 ^ 31)
    (found : ∀ before port after, rest = before ++ port :: after -> port.fd.isSome = true ->
      SelfFound network (done ++ before) port) :
    (rest.foldl (restorePort network) state).socket.ports = done ++ rest ∧
      ∀ fd, fd ∈ (rest.foldl (restorePort network) state).fds ↔ fd ∈ state.fds ∧ fd ∉ copiesOf rest := by
  induction rest generalizing done state with
  | nil => exact ⟨by simpa using ports, by simp [copiesOf]⟩
  | cons port rest ih =>
    obtain ⟨plain, others⟩ := forall_mem_cons.mp unwatched
    have foundLater : ∀ before next after, rest = before ++ next :: after -> next.fd.isSome = true ->
        SelfFound network ((done ++ [port]) ++ before) next := by
      intro before next after split opened
      have later := found (port :: before) next after (by rw [split, cons_append]) opened
      rwa [append_assoc, singleton_append]
    rw [foldl_cons]
    cases opened : port.fd with
    | none =>
      have copies : copiesOf (port :: rest) = copiesOf rest := by simp [copiesOf, opened]
      rw [copies] at different known ⊢
      have closed : loadedPort port.listen = port := by
        obtain ⟨listen, fd, watched⟩ := port
        simp only at opened plain
        subst opened plain
        rfl
      have same : restorePort network state port = state := by rw [restorePort, opened]
      rw [same]
      have result := @ih (done ++ [port]) state (by simpa [closed] using ports) others different known
        foundLater
      simpa using result
    | some copy =>
      have copies : copiesOf (port :: rest) = copy :: copiesOf rest := by simp [copiesOf, opened]
      rw [copies] at different known ⊢
      obtain ⟨absent, differentLater⟩ := nodup_cons.mp different
      obtain ⟨⟨present, small⟩, knownLater⟩ := forall_mem_cons.mp known
      have self := found [] port rest rfl (by simp [opened])
      rw [append_nil] at self
      have filled : { loadedPort port.listen with fd := some copy } = port := by
        obtain ⟨listen, fd, watched⟩ := port
        simp only at opened plain
        subst opened plain
        rfl
      have claimed : claimFirst (writtenFits network port.listen) copy state.socket.ports =
          some (done ++ port :: rest.map fun port => loadedPort port.listen) := by
        have first := claimFirst_append self.passed (show writtenFits network port.listen
          (loadedPort port.listen).listen = true from self.here) copy
          (rest.map fun port => loadedPort port.listen)
        rwa [filled, ← map_cons (f := fun port : SocketPort => loadedPort port.listen), ← ports] at first
      have step : restorePort network state port =
          state.claim (done ++ port :: rest.map fun port => loadedPort port.listen) copy := by
        rw [restorePort, opened]
        simp only [claimFd_number small, if_pos present, claimed, map_some, getD_some]
      rw [step]
      have left : ∀ other ∈ copiesOf rest, other ∈ state.fds.erase copy ∧ other < 2 ^ 31 := by
        intro other mem
        have kept : other ≠ copy := fun same => absent (same ▸ mem)
        exact ⟨Finset.mem_erase.mpr ⟨kept, (knownLater other mem).1⟩, (knownLater other mem).2⟩
      have result := @ih (done ++ [port])
        (state.claim (done ++ port :: rest.map fun port => loadedPort port.listen) copy)
        (by simp [Restoring.claim]) others differentLater left foundLater
      refine ⟨by simpa using result.1, fun fd => ?_⟩
      rw [result.2 fd]
      simp only [Restoring.claim, Finset.mem_erase, mem_cons, not_or]
      tauto

def listensOf (ports : List SocketPort) : List Listen := ports.map SocketPort.listen

def fdAt (place : Nat) (ports : List SocketPort) : Option Nat := ports[place]?.bind SocketPort.fd

theorem claimFirst_at {fits : Listen -> Bool} {fd : Nat} {ports ports' : List SocketPort}
    (claimed : claimFirst fits fd ports = some ports') :
    listensOf ports' = listensOf ports ∧
      ∀ place, fdAt place ports' = fdAt place ports ∨
        (listensOf ports).findIdx? fits = some place ∧ fdAt place ports' = some fd := by
  induction ports generalizing ports' with
  | nil => cases claimed
  | cons port rest ih =>
    unfold claimFirst at claimed
    split at claimed
    next here =>
      cases claimed
      refine ⟨rfl, fun place => ?_⟩
      cases place with
      | zero => exact .inr ⟨by simp [listensOf, findIdx?_cons, here], rfl⟩
      | succ place => exact .inl rfl
    next elsewhere =>
      obtain ⟨rest', restClaimed, rfl⟩ := map_eq_some_iff.mp claimed
      obtain ⟨same, each⟩ := ih restClaimed
      refine ⟨by simpa [listensOf] using same, fun place => ?_⟩
      cases place with
      | zero => exact .inl rfl
      | succ place =>
        rcases each place with kept | ⟨first, got⟩
        next => exact .inl kept
        next =>
          rw [listensOf] at first
          exact .inr ⟨by simp [listensOf, findIdx?_cons, elsewhere, first], got⟩

theorem restorePort_at {network : Network} {state : Restoring} {port : SocketPort}
    (small : ∀ copy, port.fd = some copy -> copy < 2 ^ 31) :
    listensOf (restorePort network state port).socket.ports = listensOf state.socket.ports ∧
      ∀ place, fdAt place (restorePort network state port).socket.ports =
          fdAt place state.socket.ports ∨
        (listensOf state.socket.ports).findIdx? (writtenFits network port.listen) = some place ∧
          fdAt place (restorePort network state port).socket.ports = port.fd := by
  cases opened : port.fd with
  | none =>
    have same : restorePort network state port = state := by rw [restorePort, opened]
    rw [same]
    exact ⟨rfl, fun _ => .inl rfl⟩
  | some copy =>
    rw [restorePort, opened]
    simp only [claimFd_number (small copy opened)]
    split
    next =>
      cases claimed : claimFirst (writtenFits network port.listen) copy state.socket.ports with
      | none => exact ⟨rfl, fun _ => .inl rfl⟩
      | some ports' => exact claimFirst_at claimed
    next => exact ⟨rfl, fun _ => .inl rfl⟩

theorem restore_misses {items : List SocketPort} {state : Restoring} {place copy : Nat}
    (small : ∀ other ∈ copiesOf items, other < 2 ^ 31)
    (missing : fdAt place state.socket.ports ≠ some copy)
    (elsewhere : ∀ port ∈ items, port.fd = some copy ->
      (listensOf state.socket.ports).findIdx? (writtenFits network port.listen) ≠ some place) :
    fdAt place (items.foldl (restorePort network) state).socket.ports ≠ some copy := by
  induction items generalizing state with
  | nil => exact missing
  | cons port rest ih =>
    obtain ⟨here, others⟩ := forall_mem_cons.mp elsewhere
    have smallHere : ∀ other, port.fd = some other -> other < 2 ^ 31 := fun other opened =>
      small other (mem_filterMap.mpr ⟨port, mem_cons_self, opened⟩)
    have smallLater : ∀ other ∈ copiesOf rest, other < 2 ^ 31 := by
      intro other mem
      obtain ⟨next, among, opened⟩ := mem_filterMap.mp mem
      exact small other (mem_filterMap.mpr ⟨next, mem_cons_of_mem port among, opened⟩)
    obtain ⟨same, each⟩ := @restorePort_at network state port smallHere
    rw [foldl_cons]
    refine ih smallLater ?_ (by rw [same]; exact others)
    rcases each place with kept | ⟨first, got⟩
    next => rwa [kept]
    next =>
      rw [got]
      exact fun opened => here opened first

theorem selfFound_of_first {before after : List SocketPort} {port : SocketPort}
    (first : (listensOf (before ++ port :: after)).findIdx? (writtenFits network port.listen) =
      some before.length) : SelfFound network before port := by
  obtain ⟨bound, here, passed⟩ := findIdx?_eq_some_iff_getElem.mp first
  refine ⟨fun other mem => ?_, by simpa [listensOf] using here⟩
  obtain ⟨index, inside, rfl⟩ := mem_iff_getElem.mp mem
  have unmatched := passed index inside
  simpa [listensOf, inside] using unmatched

theorem found_of_restored {before after : List SocketPort} {port : SocketPort} {state : Restoring}
    (same : listensOf state.socket.ports = listensOf (before ++ port :: after))
    (closed : ∀ place, fdAt place state.socket.ports = none)
    (different : (copiesOf (before ++ port :: after)).Nodup)
    (small : ∀ copy ∈ copiesOf (before ++ port :: after), copy < 2 ^ 31)
    (opened : port.fd.isSome = true)
    (restored : ((before ++ port :: after).foldl (restorePort network) state).socket.ports =
      before ++ port :: after) : SelfFound network before port := by
  obtain ⟨copy, number⟩ := isSome_iff_exists.mp opened
  have copies : copiesOf (before ++ port :: after) = copiesOf before ++ copy :: copiesOf after := by
    simp [copiesOf, number]
  rw [copies] at different
  by_contra unfound
  have missing : fdAt before.length state.socket.ports ≠ some copy := by
    rw [closed]
    simp
  have missed : fdAt before.length
      ((before ++ port :: after).foldl (restorePort network) state).socket.ports ≠ some copy := by
    refine restore_misses small missing ?_
    intro other mem owned first
    have only : other = port := by
      rcases mem_append.mp mem with early | late
      · have twice : copy ∈ copiesOf before := mem_filterMap.mpr ⟨other, early, owned⟩
        exact absurd rfl ((nodup_append.mp different).2.2 copy twice copy mem_cons_self)
      · rcases mem_cons.mp late with rfl | late
        · rfl
        · have twice : copy ∈ copiesOf after := mem_filterMap.mpr ⟨other, late, owned⟩
          have once := (nodup_append.mp different).2.1
          exact absurd twice (nodup_cons.mp once).1
    rw [same, only] at first
    exact unfound (selfFound_of_first first)
  rw [restored] at missed
  exact missed (by simp [fdAt, number])

def Listen.SameButScope : Listen -> Listen -> Prop
  | .socket address _ _, .socket other _ _ =>
    address.type = other.type ∧
      ∃ host port scope scope', address.sockaddr = .inet6 host port scope ∧
        other.sockaddr = .inet6 host port scope'
  | _, _ => False

/-- Every open port has an item that can be read, and none in front of it that it can be taken for. -/
structure Restorable (network : Network) (ports : List SocketPort) : Prop where
  readable : ∀ port ∈ ports, port.fd.isSome = true -> Readable network port.listen
  told : ports.Pairwise fun earlier later =>
    later.fd.isSome = true -> ¬ later.listen.SameButScope earlier.listen

/-- The ports have the copies of their descriptors after the reload, and no descriptor is left over. -/
def Survives (cfg : Config) (network : Network) (duplicates : Duplicates) (s : Socket)
    (fds : Finset Nat) (copied : List SocketPort) : Prop :=
  ∃ items fds', socketSerialize network duplicates s fds = .ok (items, fds') ∧
    let restored := socketDeserialize cfg network items ⟨loadedSocket (listensOf s.ports), fds'⟩
    restored.socket.ports = copied ∧ restored.fds = fds

theorem sockaddrEqual_iff (a b : Sockaddr) :
    sockaddrEqual a b = true ↔
      a = b ∨ ∃ host port scope scope', a = .inet6 host port scope ∧ b = .inet6 host port scope' := by
  cases a with
  | inet6 host port scope =>
    cases b with
    | inet6 host' port' scope' =>
      simp only [sockaddrEqual, Bool.and_eq_true, decide_eq_true_eq]
      constructor
      · rintro ⟨rfl, rfl⟩
        exact .inr ⟨host, port, scope, scope', rfl, rfl⟩
      · rintro (same | ⟨_, _, _, _, first, second⟩)
        · cases same
          exact ⟨rfl, rfl⟩
        · cases first
          cases second
          exact ⟨rfl, rfl⟩
    | inet | unix | abstract | netlink => simp [sockaddrEqual]
  | inet | unix | abstract | netlink => cases b <;> simp [sockaddrEqual]

theorem matches_iff {listen other : Listen} (distinct : other ≠ listen) :
    listen.Matches other ↔ listen.SameButScope other := by
  cases listen with
  | fifo path =>
    cases other <;> simp_all [Listen.Matches, Listen.SameButScope]
  | special path =>
    cases other <;> simp_all [Listen.Matches, Listen.SameButScope]
  | mqueue path => rfl
  | socket address valid raw =>
    cases other with
    | fifo | special | mqueue => rfl
    | socket b valid' raw' =>
      obtain ⟨sockaddr, type⟩ := address
      obtain ⟨sockaddr', type'⟩ := b
      simp only [Listen.Matches, Listen.SameButScope, socketAddressEqual, valid, valid', Bool.true_and,
        Bool.and_eq_true, decide_eq_true_eq, sockaddrEqual_iff]
      constructor
      · rintro ⟨rfl, rfl | ⟨host, port, scope, scope', second, first⟩⟩
        · exact absurd rfl distinct
        · exact ⟨rfl, host, port, scope', scope, first, second⟩
      · rintro ⟨rfl, host, port, scope, scope', first, second⟩
        exact ⟨rfl, .inr ⟨host, port, scope', scope, second, first⟩⟩

theorem listens_of_shapes {ports copied : List SocketPort}
    (shapes : copied.map SocketPort.shape = ports.map SocketPort.shape) :
    listensOf copied = listensOf ports := by
  have projected := congrArg (List.map Prod.fst) shapes
  simpa [listensOf, SocketPort.shape, comp_def] using projected

theorem restorable_of_shapes {ports copied : List SocketPort}
    (shapes : copied.map SocketPort.shape = ports.map SocketPort.shape) :
    Restorable network copied ↔ Restorable network ports := by
  have reading : ∀ list : List SocketPort, Restorable network list ↔
      (∀ shape ∈ list.map SocketPort.shape, shape.2 = true -> Readable network shape.1) ∧
        (list.map SocketPort.shape).Pairwise fun earlier later =>
          later.2 = true -> ¬ later.1.SameButScope earlier.1 := by
    intro list
    rw [List.forall_mem_map, List.pairwise_map]
    exact ⟨fun restorable => ⟨restorable.readable, restorable.told⟩, fun ⟨readable, told⟩ =>
      ⟨readable, told⟩⟩
  rw [reading copied, reading ports, shapes]

theorem listen_differs {before after : List SocketPort} {port other : SocketPort}
    (distinct : (listensOf (before ++ port :: after)).Nodup) (early : other ∈ before) :
    other.listen ≠ port.listen := by
  rw [listensOf, map_append, map_cons] at distinct
  exact (nodup_append.mp distinct).2.2 _ (mem_map_of_mem early) _ mem_cons_self

theorem restorable_iff {copied : List SocketPort} (distinct : (listensOf copied).Nodup)
    (reads : ∀ port ∈ copied, network.ReadsListen port.listen) :
    Restorable network copied ↔
      ∀ before port after, copied = before ++ port :: after -> port.fd.isSome = true ->
        SelfFound network before port := by
  constructor
  next =>
    intro restorable before port after split opened
    subst split
    have mem : port ∈ before ++ port :: after := by simp
    have readable := restorable.readable port mem opened
    have written : ∀ path, port.listen ≠ .mqueue path := by
      intro path same
      rw [same] at readable
      exact readable
    refine ⟨fun other early => ?_, ?_⟩
    · have told := (pairwise_append.mp restorable.told).2.2 other early port mem_cons_self opened
      rw [← Bool.not_eq_true, writtenFits_iff (reads port mem) readable,
        matches_iff (listen_differs distinct early)]
      exact told
    · exact (writtenFits_iff (reads port mem) readable _).mpr (matches_self written)
  next =>
    intro found
    refine ⟨fun port mem opened => ?_, ?_⟩
    · obtain ⟨before, after, split⟩ := append_of_mem mem
      exact readable_of_writtenFits (reads port mem) (found before port after split opened).here
    · rw [pairwise_iff_getElem]
      intro i j _ inside ordered opened
      have split : copied = copied.take j ++ copied[j] :: copied.drop (j + 1) := by
        rw [getElem_cons_drop, take_append_drop]
      have early : copied[i] ∈ copied.take j :=
        mem_take_iff_getElem.mpr ⟨i, by omega, rfl⟩
      have self := found _ _ _ split opened
      have mem : copied[j] ∈ copied := getElem_mem inside
      have readable := readable_of_writtenFits (reads _ mem) self.here
      have passed := self.passed _ early
      rw [split] at distinct
      rwa [← Bool.not_eq_true, writtenFits_iff (reads _ mem) readable,
        matches_iff (listen_differs distinct early)] at passed

theorem written_of_readable {listen : Listen} (readable : Readable network listen) :
    (portText network listen).isSome = true := by
  apply portText_some
  rintro path rfl
  exact readable

theorem deserialize_ports {s : Socket} {fds fds' : Finset Nat} {copied : List SocketPort}
    (copies : Copied s.ports copied fds fds')
    (written : ∀ port ∈ s.ports, port.fd.isSome = true ->
      (portText network port.listen).isSome = true) :
    socketDeserialize cfg network (stateItems s ++ copied.filterMap (itemOf network))
        ⟨loadedSocket (listensOf s.ports), fds'⟩ =
      copied.foldl (restorePort network) ⟨restoredSocket cfg s (listensOf s.ports), fds'⟩ := by
  have writtenCopied : ∀ port ∈ copied, port.fd.isSome = true ->
      (portText network port.listen).isSome = true := by
    intro port mem opened
    have shape : port.shape ∈ s.ports.map SocketPort.shape :=
      copies.shapes ▸ mem_map_of_mem mem
    obtain ⟨source, among, same⟩ := mem_map.mp shape
    have listen : source.listen = port.listen := congrArg Prod.fst same
    have isOpen : source.fd.isSome = port.fd.isSome := congrArg Prod.snd same
    exact listen ▸ written source among (isOpen.trans opened)
  have state : socketDeserialize cfg network (stateItems s) ⟨loadedSocket (listensOf s.ports), fds'⟩ =
      ⟨restoredSocket cfg s (listensOf s.ports), fds'⟩ :=
    deserialize_stateItems s (listensOf s.ports) fds'
  rw [socketDeserialize, foldl_append]
  rw [socketDeserialize] at state
  rw [state]
  exact socketDeserialize_items writtenCopied (fun copy mem => (copies.new copy mem).2) _

/-- Exactly when the listening descriptors survive a reload, each in its own place. -/
theorem ports_survive_iff {s : Socket} {fds fds' : Finset Nat} {copied : List SocketPort}
    (distinct : (listensOf s.ports).Nodup)
    (reads : ∀ port ∈ s.ports, network.ReadsListen port.listen)
    (made : copyPorts duplicates s.ports fds = some (copied, fds')) :
    Survives cfg network duplicates s fds copied ↔ Restorable network s.ports := by
  have copies := copied_ports made
  have same : listensOf copied = listensOf s.ports := listens_of_shapes copies.shapes
  have readsCopied : ∀ port ∈ copied, network.ReadsListen port.listen := by
    intro port mem
    have listen : port.listen ∈ listensOf s.ports := same ▸ mem_map_of_mem mem
    obtain ⟨source, among, equal⟩ := mem_map.mp listen
    exact equal ▸ reads source among
  have initial : (restoredSocket cfg s (listensOf s.ports)).ports =
      copied.map fun port => loadedPort port.listen := by
    rw [← same, listensOf]
    simp [restoredSocket, loadedSocket, comp_def]
  rw [← restorable_of_shapes copies.shapes, restorable_iff (same ▸ distinct) readsCopied]
  constructor
  next =>
    rintro ⟨items, _, serialized, restored, -⟩ before port after split opened
    obtain ⟨⟨portItems, portFds⟩, portsSerialized, whole⟩ := map_eq_ok serialized
    have written := serializePorts_written portsSerialized
    have items := (serializePorts_made made written).symm.trans portsSerialized
    cases items
    cases whole
    rw [deserialize_ports copies written] at restored
    subst split
    refine found_of_restored ?_ ?_ copies.different (fun copy mem => (copies.new copy mem).2)
      opened restored
    · rw [initial]
      simp [listensOf, loadedPort, comp_def]
    · intro place
      rw [initial, fdAt, getElem?_map]
      cases (before ++ port :: after)[place]? <;> rfl
  next =>
    intro found
    have restorable : Restorable network s.ports :=
      (restorable_of_shapes copies.shapes).mp
        ((restorable_iff (same ▸ distinct) readsCopied).mpr found)
    have written : ∀ port ∈ s.ports, port.fd.isSome = true ->
        (portText network port.listen).isSome = true := fun port mem opened =>
      written_of_readable (restorable.readable port mem opened)
    refine ⟨stateItems s ++ copied.filterMap (itemOf network), fds', ?_, ?_⟩
    · rw [socketSerialize, serializePorts_made made written]
      rfl
    · rw [deserialize_ports copies written]
      have known : ∀ copy ∈ copiesOf copied, copy ∈ fds' ∧ copy < 2 ^ 31 := fun copy mem =>
        ⟨(copies.descriptors copy).mpr (.inr mem), (copies.new copy mem).2⟩
      have result := @restore_ports network [] copied
        ⟨restoredSocket cfg s (listensOf s.ports), fds'⟩ initial copies.unwatched copies.different known
        found
      refine ⟨result.1, ?_⟩
      ext fd
      rw [result.2 fd, copies.descriptors fd]
      constructor
      · rintro ⟨old | copy, left⟩
        · exact old
        · exact absurd copy left
      · exact fun old => ⟨.inl old, fun copy => (copies.new fd copy).1 old⟩

end

namespace Examples

def loopback : Network where
  inetNtop := fun _ => .ofString "127.0.0.1"
  inetPton := fun text => if text = .ofString "127.0.0.1" then some 0x7f000001 else none
  inet6Ntop := fun _ => .ofString "::"
  inet6Pton := fun text => if text = .ofString "::" then some 0 else none
  ifNametoindex := fun _ => 0
  ipv6IsSupported := true

def http : PortNumber := ⟨80, by decide⟩

def localhost : Listen :=
  .socket ⟨.inet 0x7f000001 http, sockStream⟩ rfl (by intro _ _ netlink; cases netlink)

def interface (scope : UInt32) : Listen :=
  .socket ⟨.inet6 0 http scope, sockStream⟩ rfl (by intro _ _ netlink; cases netlink)

def uevents : Listen := .socket ⟨.netlink 15 1, sockRaw⟩ rfl (by intro _ _ _; rfl)

def fifo : Listen := .fifo (.ofString "/run/fifo")

def mixed : Socket :=
  { ports := [⟨localhost, none, false⟩, ⟨fifo, some 3, true⟩, ⟨interface 2, some 4, true⟩,
      ⟨uevents, some 5, true⟩] }

def mixedCopied : List SocketPort :=
  [⟨localhost, none, false⟩, ⟨fifo, some 13, false⟩, ⟨interface 2, some 14, false⟩,
    ⟨uevents, some 15, false⟩]

def family : Listen -> Nat
  | .fifo _ => 0
  | .special _ => 1
  | .mqueue _ => 2
  | .socket address _ _ =>
    match address.sockaddr with
    | .inet _ _ => 3
    | .inet6 _ _ _ => 4
    | .unix _ | .abstract _ => 5
    | .netlink _ _ => 6

theorem fifo_readable : Readable loopback fifo := by
  show (CString.ofString "/run/fifo").bytes.head?.any Serialization.isSpace = false
  decide

theorem mixed_survive : Survives cfg loopback duplicates mixed ∅ mixedCopied := by
  have families : ((listensOf mixed.ports).map family).Nodup := by decide
  have reads : ∀ port ∈ mixed.ports, loopback.ReadsListen port.listen := by
    simp only [mixed, forall_mem_cons, not_mem_nil, false_implies, implies_true, and_true]
    refine ⟨⟨by decide, ?_⟩, trivial, ⟨by decide, by decide⟩, trivial⟩
    decide
  have made : copyPorts duplicates mixed.ports ∅ = some (mixedCopied, {15, 14, 13}) := rfl
  refine (ports_survive_iff families.of_map reads made).mpr ⟨?_, ?_⟩
  · simp only [mixed, forall_mem_cons, not_mem_nil, false_implies, implies_true, and_true]
    exact ⟨nofun, fun _ => fifo_readable, fun _ => rfl, fun _ => trivial⟩
  · simp [mixed, Listen.SameButScope, localhost, fifo, interface, uevents]

def queue : Socket := { ports := [⟨.mqueue (.ofString "/queue"), some 3, true⟩] }

def interfaces : Socket := { ports := [⟨interface 2, none, false⟩, ⟨interface 3, some 4, true⟩] }

/-- The reload aborts on the message queue, and gives the descriptor of the second interface to the
first. -/
theorem queue_and_interface_lost :
    socketSerialize loopback duplicates queue ∅ = .error .aborted ∧
    ¬ Survives cfg loopback duplicates queue ∅ [⟨.mqueue (.ofString "/queue"), some 13, false⟩] ∧
    (listensOf interfaces.ports).Nodup ∧
    ∃ items fds, socketSerialize loopback duplicates interfaces ∅ = .ok (items, fds) ∧
      (socketDeserialize cfg loopback items ⟨loadedSocket (listensOf interfaces.ports), fds⟩).socket.ports.map
        SocketPort.fd = [some 14, none] := by
  have aborted : socketSerialize loopback duplicates queue ∅ = .error .aborted := rfl
  refine ⟨aborted, ?_, by simp [listensOf, interfaces, interface], _, _, rfl, by decide⟩
  rintro ⟨items, fds, serialized, -⟩
  rw [aborted] at serialized
  cases serialized

end Examples

end Systemd.Sockets
