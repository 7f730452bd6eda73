import Rdp.Model.Link.Deliver

/-!
This module contains what a link reads from a stream of known bytes, however they are cut.
-/

namespace Rdp

namespace Arrival

/--
The stream delivers exactly `bytes`, cut in any way, and then ends.
-/
def Delivers (bytes : Bytes) (reads : List Arrival) : Prop :=
  match reads with
  | [] => bytes = []
  | .byte b :: reads => ∃ rest, bytes = b :: rest ∧ Delivers rest reads
  | .cut :: reads => Delivers bytes reads
  | .fail _ :: _ => False

theorem readExact_of_delivers {taken rest : Bytes} {reads : List Arrival}
    (h : Delivers (taken ++ rest) reads) :
    ∃ left, readExact taken.length reads = (.ok taken, left) ∧ Delivers rest left := by
  induction reads generalizing taken with
  | nil =>
    obtain ⟨rfl, rfl⟩ := List.append_eq_nil_iff.mp h
    exact ⟨[], rfl, rfl⟩
  | cons a reads ih =>
    cases taken with
    | nil => exact ⟨_, by simp [readExact], h⟩
    | cons t taken =>
      cases a with
      | byte b =>
        obtain ⟨_, heq, h⟩ := h
        rw [List.cons_append] at heq
        cases heq
        obtain ⟨left, hread, hleft⟩ := ih h
        refine ⟨left, ?_, hleft⟩
        simp only [List.length_cons, readExact, hread]
      | cut => exact ih h
      | fail e => cases h

theorem readExact_of_delivers_nil {reads : List Arrival} (h : Delivers [] reads) (n : Nat) :
    readExact (n + 1) reads = (.error .unexpectedEof, []) := by
  induction reads with
  | nil => rfl
  | cons a reads ih =>
    cases a with
    | byte b =>
      obtain ⟨_, hnil, _⟩ := h
      cases hnil
    | cut => exact ih h
    | fail e => cases h

/--
The stream brings these bytes, cut in any way, and goes on as `rest` does.
-/
def Brings (bytes : Bytes) (rest reads : List Arrival) : Prop :=
  ∃ front cuts left, reads = front ++ left ∧ rest = cuts ++ left ∧ Delivers bytes front ∧ Delivers [] cuts

theorem brings_nil_iff {bytes : Bytes} {reads : List Arrival} : Brings bytes [] reads ↔ Delivers bytes reads := by
  constructor
  . rintro ⟨front, cuts, left, rfl, hrest, h, _⟩
    obtain ⟨rfl, rfl⟩ := List.append_eq_nil_iff.mp hrest.symm
    rwa [List.append_nil]
  . intro h
    exact ⟨reads, [], [], (List.append_nil _).symm, rfl, h, rfl⟩

theorem readExact_append {n : Nat} {taken : Bytes} {reads left : List Arrival}
    (h : readExact n reads = (.ok taken, left)) (behind : List Arrival) :
    readExact n (reads ++ behind) = (.ok taken, left ++ behind) := by
  induction reads generalizing n taken with
  | nil =>
    cases n with
    | zero =>
      cases h
      simp [readExact]
    | succ n => cases h
  | cons a reads ih =>
    cases n with
    | zero =>
      cases h
      rfl
    | succ n =>
      cases a with
      | byte b =>
        simp only [readExact, List.cons_append] at h ⊢
        split at h
        next bytes left' hread =>
          cases h
          rw [ih hread]
        next => cases h
      | cut => exact ih h
      | fail e =>
        cases e with
        | interrupted => exact ih h
        | _ => cases h

theorem readExact_of_brings {taken more : Bytes} {rest reads : List Arrival}
    (h : Brings (taken ++ more) rest reads) :
    ∃ left, readExact taken.length reads = (.ok taken, left) ∧ Brings more rest left := by
  obtain ⟨front, cuts, left, rfl, rfl, hdelivers, hcuts⟩ := h
  obtain ⟨left', hread, hleft⟩ := readExact_of_delivers hdelivers
  exact ⟨_, readExact_append hread left, left', cuts, left, rfl, rfl, hleft, hcuts⟩

theorem read_of_brings {bytes : Bytes} {rest reads : List Arrival} (h : Brings bytes rest reads)
    (hne : bytes ≠ []) (n : Nat) : ∃ b taken left, read (n + 1) reads = (.ok (b :: taken), left) := by
  obtain ⟨front, cuts, left, rfl, rfl, hdelivers, _⟩ := h
  induction front with
  | nil => exact absurd hdelivers hne
  | cons a front ih =>
    cases a with
    | byte b => exact ⟨b, _, _, rfl⟩
    | cut => exact ih hdelivers
    | fail e => cases hdelivers

theorem read_append {cuts : List Arrival} (h : Delivers [] cuts) (n : Nat) (behind : List Arrival) :
    read n (cuts ++ behind) = read n behind := by
  induction cuts with
  | nil => rfl
  | cons a cuts ih =>
    cases a with
    | byte b =>
      obtain ⟨_, hnil, _⟩ := h
      cases hnil
    | cut => exact ih h
    | fail e => cases h

theorem read_of_ended {reads : List Arrival} (h : Delivers [] reads) (n : Nat) :
    read n reads = (.ok [], []) := by
  have hread := read_append h n []
  rwa [List.append_nil] at hread

theorem ended_of_read {n : Nat} {reads left : List Arrival} (h : read (n + 1) reads = (.ok [], left)) :
    Delivers [] reads ∧ left = [] := by
  induction reads with
  | nil =>
    cases h
    exact ⟨rfl, rfl⟩
  | cons a reads ih =>
    cases a with
    | byte b => cases h
    | cut => exact ih h
    | fail e => cases h

end Arrival

namespace Socket

theorem run_readExact (n : Nat) (s : Socket) :
    (readExact n).run s =
      match Arrival.readExact n s.reads with
      | (.ok bytes, reads) => .ok bytes { s with reads }
      | (.error e, reads) => .error (.error (.io e)) { s with reads } := rfl

theorem run_read (n : Nat) (s : Socket) :
    (read n).run s =
      match Arrival.read n s.reads with
      | (.ok bytes, reads) => .ok bytes { s with reads }
      | (.error e, reads) => .error (.error (.io e)) { s with reads } := rfl

end Socket

namespace Link

def reads (link : Link) : List Arrival := link.stream.socket.reads

def Delivers (bytes : Bytes) (link : Link) : Prop := Arrival.Delivers bytes link.reads

def Brings (bytes : Bytes) (rest : List Arrival) (link : Link) : Prop := Arrival.Brings bytes rest link.reads

def withReads (reads : List Arrival) (link : Link) : Link :=
  { link with stream := link.stream.withSocket { link.stream.socket with reads } }

@[simp]
theorem reads_withReads (reads : List Arrival) (link : Link) :
    (link.withReads reads).reads = reads := by
  simp only [Link.reads, withReads, Stream.socket_withSocket]

@[simp]
theorem writes_withReads (reads : List Arrival) (link : Link) :
    (link.withReads reads).writes = link.writes := by
  simp only [Link.writes, withReads, Stream.socket_withSocket]

theorem withReads_withReads (link : Link) (reads reads' : List Arrival) :
    (link.withReads reads).withReads reads' = link.withReads reads' := by
  cases link with
  | mk stream sent => cases stream <;> rfl

theorem reads_eq_withReads (link : Link) : link.withReads link.reads = link := by
  cases link with
  | mk stream sent => cases stream <;> rfl

def Writable (link : Link) : Prop := ∀ e, link.writes[0]? ≠ some (.fail e)

theorem run_write_of_writable {m : Message} {buffer : Bytes} (hm : m.write = .ok buffer) {link : Link}
    (h : link.Writable) : ∃ link', (write m).run link = .ok () link' := by
  rw [run_write hm]
  cases hrun : (Socket.write buffer).run link.stream.socket with
  | ok n s => exact ⟨_, rfl⟩
  | error e s =>
    change Socket.write buffer link.stream.socket = _ at hrun
    unfold Socket.write at hrun
    split at hrun
    next => cases hrun
    next => cases hrun
    next e' writes hwrites =>
      unfold Writable Link.writes at h
      exact absurd (by rw [hwrites]; rfl) (h e')

theorem writable_of_run_write {m : Message} {buffer : Bytes} (hm : m.write = .ok buffer)
    {link link' : Link} (h : (write m).run link = .ok () link') :
    link.Writable ∧ link'.reads = link.reads := by
  rw [run_write hm] at h
  split at h
  next n s hrun =>
    cases h
    change Socket.write buffer link.stream.socket = _ at hrun
    simp only [Link.reads, Stream.socket_withSocket]
    unfold Writable writes
    unfold Socket.write at hrun
    split at hrun
    next hwrites =>
      cases hrun
      rw [hwrites]
      simp
    next hwrites =>
      cases hrun
      rw [hwrites]
      simp
    next => cases hrun
  next => cases h

theorem run_write_of_nil {m : Message} {buffer : Bytes} (h : m.write = .ok buffer) {link : Link}
    (hwrites : link.writes = []) : ∃ link', (write m).run link = .ok () link' ∧
      link'.reads = link.reads ∧ link'.writes = [] := by
  have hwritable : link.Writable := by
    intro e
    rw [hwrites]
    simp
  obtain ⟨link', hrun⟩ := run_write_of_writable h hwritable
  obtain ⟨_, _, _, _, htail⟩ := run_write_eq_ok h hrun
  refine ⟨link', hrun, (writable_of_run_write h hrun).2, ?_⟩
  rw [htail, hwrites]
  rfl

theorem faults_read (n : Nat) : Prog.Faults (fun e => ∃ err, e = .error err) (read n) := by
  unfold read onStream
  split
  . apply Prog.Faults.zoom
    apply Prog.Faults.zoom
    intro s e s' h
    rw [Socket.run_read] at h
    split at h <;> cases h
    exact ⟨_, rfl⟩
  . apply Prog.Faults.zoom
    apply Prog.Faults.zoom
    intro s e s' h
    rw [Socket.run_readExact] at h
    split at h <;> cases h
    exact ⟨_, rfl⟩

theorem run_read_pos (link : Link) (n : Nat) :
    (read (n + 1)).run link =
      match Arrival.readExact (n + 1) link.reads with
      | (.ok bytes, left) => .ok bytes (link.withReads left)
      | (.error e, left) => .error (.error (.io e)) (link.withReads left) := by
  rw [read, if_neg (Nat.succ_ne_zero n)]
  simp only [onStream, Stream.readExact, Prog.run_zoom, Socket.run_readExact, reads]
  rcases Arrival.readExact (n + 1) link.stream.socket.reads with ⟨_ | _, left⟩ <;> rfl

theorem run_read_zero (link : Link) :
    (read 0).run link =
      match Arrival.read 1500 link.reads with
      | (.ok bytes, left) => .ok bytes (link.withReads left)
      | (.error e, left) => .error (.error (.io e)) (link.withReads left) := by
  rw [read, if_pos rfl]
  simp only [onStream, Stream.read, Prog.run_zoom, Socket.run_read, reads]
  rcases Arrival.read 1500 link.stream.socket.reads with ⟨_ | _, left⟩ <;> rfl

theorem run_read_zero_eq_ok {bytes : Bytes} {link link' : Link}
    (h : (read 0).run link = .ok bytes link') :
    ∃ left, Arrival.read 1500 link.reads = (.ok bytes, left) ∧ link' = link.withReads left := by
  rw [run_read_zero] at h
  split at h
  next left hread =>
    cases h
    exact ⟨left, hread, rfl⟩
  next => cases h

theorem run_read_of_brings {taken more : Bytes} {rest : List Arrival} {link : Link} (hne : taken ≠ [])
    (h : link.Brings (taken ++ more) rest) :
    ∃ link', (read taken.length).run link = .ok taken link' ∧ link'.Brings more rest := by
  obtain ⟨left, hread, hleft⟩ := Arrival.readExact_of_brings h
  have hpos := List.length_pos_of_ne_nil hne
  obtain ⟨n, hn⟩ : ∃ n, taken.length = n + 1 := ⟨taken.length - 1, by omega⟩
  refine ⟨link.withReads left, ?_, ?_⟩
  . rw [hn] at hread ⊢
    rw [run_read_pos, hread]
  . rw [Brings, reads_withReads]
    exact hleft

theorem run_read_zero_iff {bytes : Bytes} {rest : List Arrival} {link : Link} (h : link.Brings bytes rest) :
    (∃ link', (read 0).run link = .ok [] link' ∧ link'.Brings bytes rest) ↔
      bytes = [] ∧ Arrival.Delivers [] rest := by
  constructor
  . rintro ⟨link', hrun, _⟩
    obtain ⟨left, hread, _⟩ := run_read_zero_eq_ok hrun
    by_cases hne : bytes = []
    . obtain ⟨front, cuts, left', hreads, rfl, hfront, hcuts⟩ := h
      rw [hne] at hfront
      rw [hreads, Arrival.read_append hfront, ← Arrival.read_append hcuts] at hread
      exact ⟨hne, (Arrival.ended_of_read hread).1⟩
    . obtain ⟨b, taken, left', htaken⟩ := Arrival.read_of_brings h hne 1499
      cases hread.symm.trans htaken
  . rintro ⟨rfl, hended⟩
    obtain ⟨front, cuts, left, hreads, rfl, hfront, hcuts⟩ := h
    have hread : Arrival.read 1500 link.reads = (.ok [], []) := by
      rw [hreads, Arrival.read_append hfront, ← Arrival.read_append hcuts]
      exact Arrival.read_of_ended hended 1500
    refine ⟨link.withReads [], ?_, ?_⟩
    . rw [run_read_zero, hread]
    . rw [Brings, reads_withReads]
      exact ⟨[], cuts ++ left, [], rfl, (List.append_nil _).symm, rfl, hended⟩

end Link

end Rdp
