import ProjectTrans.Lib.Run
import ProjectTrans.Model.Protocol.ClientMessageCodec
import ProjectTrans.Model.Server.SimpleServer
import ProjectTrans.Proof.Codec.FrameAssembler

/-!
# The clients of the simple server (`simple_server/source/main.cpp`)

Each client has a thread of its own, and all threads share the list of files.
`clients_served`: whatever the threads, their sockets and the file system do, the frames
that have been answered are the first of those a client has sent, what its socket has taken
is the beginning of the answers, and both are complete when the thread is back in `recv`;
and a file id means one file for all clients and for good.
-/

namespace ProjectTrans

open Wire Framing

open FrameAssembler (format)

namespace SimpleServer

variable {host : Endian} {text : SerializeField → Bytes} {config : ServerConfig} {fs : FileSystem}
  {kFiles kFiles' : Option (List Bytes)}

/-! ## The list of files -/

/-- The list before and after a request: it is made once and kept. -/
structure Listed (config : ServerConfig) (fs : FileSystem) (kFiles kFiles' : Option (List Bytes)) : Prop where
  kept : ∀ files, kFiles = some files → kFiles' = some files
  made : ∀ files, kFiles' = some files → kFiles = some files ∨ files = listResourceFilesSorted config fs

theorem Listed.refl (kFiles : Option (List Bytes)) : Listed config fs kFiles kFiles where
  kept := fun _ h => h
  made := fun _ h => .inl h

theorem resolvedPath_listed (config : ServerConfig) (fs : FileSystem) (kFiles : Option (List Bytes))
    (fileId : Int64) : Listed config fs kFiles (resolvedPath config fs kFiles fileId).2 := by
  unfold resolvedPath
  split
  · exact .refl kFiles
  · unfold resolveFilePathForFileId
    split
    · exact .refl kFiles
    · constructor
      · rintro files rfl
        rfl
      · intro files hfiles
        obtain rfl := Option.some.inj hfiles
        cases kFiles with
        | none => exact .inr rfl
        | some files => exact .inl rfl

/-- A path is found as it would be with the list that is there later. -/
theorem resolvedPath_later {fileId : Int64} {files : List Bytes}
    (hlater : ∀ f, (resolvedPath config fs kFiles fileId).2 = some f → f = files) :
    resolvedPath config fs (some files) fileId = ((resolvedPath config fs kFiles fileId).1, some files) := by
  unfold resolvedPath at hlater ⊢
  split at hlater
  · rename_i hfixture
    rw [if_pos hfixture, if_pos hfixture]
  · rename_i hfixture
    rw [if_neg hfixture, if_neg hfixture]
    unfold resolveFilePathForFileId at hlater ⊢
    split at hlater
    · rename_i hid
      rw [if_pos hid, if_pos hid]
    · rename_i hid
      rw [if_neg hid, if_neg hid, hlater _ rfl]
      rfl

/-- A response is made as it would be with the list that is there later. -/
theorem dispatchRequest_spec {req : EnvelopeRequestTransfer} {resp : EnvelopeResponseTransfer}
    (h : dispatchRequest host text config fs kFiles req = .ok (resp, kFiles')) :
    Listed config fs kFiles kFiles' ∧ ∀ files, (∀ f, kFiles' = some f → f = files) →
      dispatchRequest host text config fs (some files) req = .ok (resp, some files) := by
  unfold dispatchRequest at h ⊢
  by_cases htest : req.path = ascii "/test"
  · simp only [if_pos htest] at h ⊢
    obtain ⟨serializer, hbody, h⟩ := Checked.bind_eq_ok.1 h
    obtain ⟨resp', hresp, h⟩ := Checked.bind_eq_ok.1 h
    obtain ⟨rfl, rfl⟩ := Prod.mk.inj (Except.ok.inj h)
    -- a test request does not look at the files
    refine ⟨.refl _, fun files _ => ?_⟩
    rw [hbody, Checked.ok_bind, hresp]
    rfl
  simp only [if_neg htest] at h ⊢
  by_cases hdownload : req.path = ascii "/download"
  · simp only [if_pos hdownload] at h ⊢
    obtain ⟨serializer, hbody, h⟩ := Checked.bind_eq_ok.1 h
    obtain ⟨resp', hresp, h⟩ := Checked.bind_eq_ok.1 h
    obtain ⟨rfl, rfl⟩ := Prod.mk.inj (Except.ok.inj h)
    -- the list is made, or was there; later lists give the same path
    refine ⟨resolvedPath_listed config fs kFiles _, fun files hfiles => ?_⟩
    rw [hbody, Checked.ok_bind, resolvedPath_later hfiles, hresp]
    rfl
  simp only [if_neg hdownload] at h ⊢
  by_cases hblock : req.path = ascii "/block"
  · simp only [if_pos hblock] at h ⊢
    obtain ⟨serializer, hbody, h⟩ := Checked.bind_eq_ok.1 h
    obtain ⟨resp', hresp, h⟩ := Checked.bind_eq_ok.1 h
    obtain ⟨rfl, rfl⟩ := Prod.mk.inj (Except.ok.inj h)
    refine ⟨resolvedPath_listed config fs kFiles _, fun files hfiles => ?_⟩
    rw [hbody, Checked.ok_bind, resolvedPath_later hfiles, hresp]
    rfl
  · simp only [if_neg hblock] at h ⊢
    obtain ⟨body, hbuilt, h⟩ := Checked.bind_eq_ok.1 h
    obtain ⟨rfl, rfl⟩ := Prod.mk.inj (Except.ok.inj h)
    refine ⟨.refl _, fun files _ => ?_⟩
    rw [hbuilt]
    rfl

/-- So is a response frame. -/
theorem respond_spec {frame respFrame : Bytes}
    (h : respond host text config fs kFiles frame = .ok (respFrame, kFiles')) :
    Listed config fs kFiles kFiles' ∧ ∀ files, (∀ f, kFiles' = some f → f = files) →
      respond host text config fs (some files) frame = .ok (respFrame, some files) := by
  unfold respond at h ⊢
  obtain ⟨parsed, hparsed, h⟩ := Checked.bind_eq_ok.1 h
  simp only [hparsed, Checked.ok_bind]
  cases parsed with
  | none =>
    obtain ⟨body, hbuilt, h⟩ := Checked.bind_eq_ok.1 h
    obtain ⟨respFrame', hresp, h⟩ := Checked.bind_eq_ok.1 h
    obtain ⟨rfl, rfl⟩ := Prod.mk.inj (Except.ok.inj h)
    refine ⟨.refl _, fun files _ => ?_⟩
    simp only [hbuilt, Checked.ok_bind, hresp]
    rfl
  | some req =>
    obtain ⟨⟨resp, later⟩, hdispatched, h⟩ := Checked.bind_eq_ok.1 h
    obtain ⟨respFrame', hresp, h⟩ := Checked.bind_eq_ok.1 h
    obtain ⟨rfl, rfl⟩ := Prod.mk.inj (Except.ok.inj h)
    obtain ⟨hlisted, hlater⟩ := dispatchRequest_spec hdispatched
    refine ⟨hlisted, fun files hfiles => ?_⟩
    simp only [hlater files hfiles, Checked.ok_bind, hresp]
    rfl

/-- The list is sorted by the names of the files. -/
theorem listResourceFilesSorted_pairwise (config : ServerConfig) (fs : FileSystem) :
    (listResourceFilesSorted config fs).Pairwise fun a b => filename a ≤ filename b := by
  unfold listResourceFilesSorted
  split
  · exact .nil
  · have : IsTrans Bytes fun a b => filename a ≤ filename b := ⟨fun _ _ _ => List.le_trans⟩
    have : Std.Total fun a b : Bytes => filename a ≤ filename b := ⟨fun _ _ => List.le_total _ _⟩
    exact List.pairwise_insertionSort _ _

/-! ## One thread -/

/-- What is left of the response that a thread is about to send. -/
def Phase.rest : Phase → Option Bytes
  | .sending rest => some rest
  | .closed => none
  | _ => some []

namespace ClientThread

/-- What a thread has read, answered and sent, and what it keeps. -/
structure Serves (c : ClientThread) : Prop where
  assembler : c.assembler.Inv
  isFrame : ∀ answer ∈ c.answered, IsFrame format answer.1
  read : (c.answered.map Prod.fst).flatten ++ c.assembler.pending = c.received
  sent : c.sent <+: (c.answered.map Prod.snd).flatten
  unsent : ∀ rest, c.phase.rest = some rest → c.sent ++ rest = (c.answered.map Prod.snd).flatten
  waits : c.phase = .receiving → next format c.assembler.pending = none

variable {c c' : ClientThread}

theorem Serves.new (freshHeader : SerializeHeader) : Serves { assembler := .new freshHeader } where
  assembler := ⟨fun hgot => (by cases hgot), fun _ => rfl⟩
  isFrame := fun _ h => absurd h List.not_mem_nil
  read := rfl
  sent := List.prefix_rfl
  unsent := by
    intro rest hrest
    obtain rfl := Option.some.inj hrest
    rfl
  waits := fun _ => rfl

theorem Serves.close (h : c.Serves) : Serves { c with phase := .closed } where
  assembler := h.assembler
  isFrame := h.isFrame
  read := h.read
  sent := h.sent
  unsent := fun _ hrest => absurd hrest (by simp [Phase.rest])
  waits := fun hphase => (by cases hphase)

theorem Serves.recv (h : c.Serves) (hphase : c.phase = .receiving) (received : Option Bytes) :
    (c.recv received).Serves := by
  rcases received with _ | _ | ⟨b, chunk⟩
  · exact h.close
  · exact h.close
  · have hunsent := h.unsent [] (by rw [hphase]; rfl)
    refine ⟨⟨h.assembler.header, h.assembler.fresh⟩, h.isFrame, ?_, h.sent, ?_, fun hc => (by cases hc)⟩
    · have hpending : (c.assembler.pushData (b :: chunk)).pending = c.assembler.pending ++ (b :: chunk) :=
        (List.append_assoc _ _ _).symm
      show (c.answered.map Prod.fst).flatten ++ (c.assembler.pushData (b :: chunk)).pending =
        c.received ++ (b :: chunk)
      rw [hpending, ← List.append_assoc, h.read]
    · intro rest hrest
      obtain rfl := Option.some.inj hrest
      exact hunsent

@[simp] theorem sendAll_rest (data : Bytes) : (sendAll data).rest = some data := by
  unfold sendAll
  split
  · rename_i hnil
    rw [hnil]
    rfl
  · rfl

theorem sendAll_ne_receiving (data : Bytes) : sendAll data ≠ .receiving := by
  unfold sendAll
  split
  · exact fun h => (by cases h)
  · exact fun h => (by cases h)

theorem Serves.send (h : c.Serves) {rest : Bytes} (hphase : c.phase = .sending rest) (n : ℤ) :
    (c.send rest n).Serves := by
  unfold ClientThread.send
  split
  · exact h.close
  · have hunsent := h.unsent rest (by rw [hphase]; rfl)
    have hwhole : c.sent ++ rest.take n.toNat ++ rest.drop n.toNat = (c.answered.map Prod.snd).flatten := by
      rw [List.append_assoc, List.take_append_drop, hunsent]
    refine ⟨h.assembler, h.isFrame, h.read, ⟨_, hwhole⟩, ?_, fun hc => absurd hc (sendAll_ne_receiving _)⟩
    intro rest' hrest'
    dsimp only at hrest'
    rw [sendAll_rest] at hrest'
    rw [← Option.some.inj hrest']
    exact hwhole

end ClientThread

/-- **A frame is taken off and answered**, once all of it is there. -/
theorem popFrame_spec (host : Endian) (text : SerializeField → Bytes) (config : ServerConfig) {s : SimpleServer}
    {fs : FileSystem} {c c' : ClientThread} {kFiles' : Option (List Bytes)} (h : c.Serves)
    (hphase : c.phase = .popping)
    (hsmall : ∀ f rest, next format c.assembler.pending = some (f, rest) → f.length < 2 ^ 32)
    (hpopped : s.popFrame host text config fs c = .ok (c', kFiles')) :
    c'.Serves ∧ c'.received = c.received ∧ ((kFiles' = s.kFiles ∧ c'.answered = c.answered) ∨
      ∃ frame respFrame, c'.answered = c.answered ++ [(frame, respFrame)] ∧
        respond host text config fs s.kFiles frame = .ok (respFrame, kFiles')) := by
  have hunsent := h.unsent [] (by rw [hphase]; rfl)
  rw [List.append_nil] at hunsent
  have hrefines := FrameAssembler.popFrame_refines host h.assembler hsmall
  unfold popFrame at hpopped
  cases hnext : next format c.assembler.pending with
  | none =>
    -- the thread goes back to `recv`
    rw [hnext] at hrefines
    obtain ⟨a', hframe, hinv, hpending⟩ := hrefines
    rw [hframe, Checked.ok_bind] at hpopped
    obtain ⟨rfl, rfl⟩ := Prod.mk.inj (Except.ok.inj hpopped)
    refine ⟨⟨hinv, h.isFrame, ?_, h.sent, ?_, ?_⟩, rfl, .inl ⟨rfl, rfl⟩⟩
    · dsimp only
      rw [hpending]
      exact h.read
    · intro rest hrest
      obtain rfl := Option.some.inj hrest
      rw [List.append_nil]
      exact hunsent
    · intro _
      dsimp only
      rw [hpending]
      exact hnext
  | some popped =>
    -- all of the response is still to be sent
    obtain ⟨frame, rest⟩ := popped
    rw [hnext] at hrefines
    obtain ⟨a', hframe, hinv, hpending⟩ := hrefines
    rw [hframe, Checked.ok_bind] at hpopped
    obtain ⟨⟨respFrame, later⟩, hresponds, hmade⟩ := Checked.bind_eq_ok.1 hpopped
    obtain ⟨rfl, rfl⟩ := Prod.mk.inj (Except.ok.inj hmade)
    obtain ⟨hisFrame, hwhole⟩ := next_eq_some hnext
    refine ⟨⟨hinv, ?_, ?_, ?_, ?_, fun hc => absurd hc (ClientThread.sendAll_ne_receiving _)⟩, rfl,
      .inr ⟨frame, respFrame, rfl, hresponds⟩⟩
    · intro answer hanswer
      rcases List.mem_append.1 hanswer with hold | hnew
      · exact h.isFrame answer hold
      · rw [List.mem_singleton.1 hnew]
        exact hisFrame
    · dsimp only
      rw [hpending, List.map_append, List.flatten_append, List.append_assoc, ← h.read, ← hwhole]
      simp
    · dsimp only
      rw [List.map_append, List.flatten_append, ← hunsent]
      exact List.prefix_append _ _
    · intro rest' hrest'
      dsimp only at hrest' ⊢
      rw [ClientThread.sendAll_rest] at hrest'
      rw [← Option.some.inj hrest', List.map_append, List.flatten_append, ← hunsent]
      simp

/-! ## All threads -/

/-- This is the response to its frame, with the file ids standing for these files. -/
def Answers (host : Endian) (text : SerializeField → Bytes) (config : ServerConfig) (files : List Bytes)
    (answer : Bytes × Bytes) : Prop :=
  ∃ fs, respond host text config fs (some files) answer.1 = .ok (answer.2, some files)

/-- The frames that are taken off are shorter than `2 ^ 32`. -/
def readsSmall (s : SimpleServer) : SimpleServerAction → Bool
  | .popFrame client _ =>
    match s.clients[client]? with
    | some c => (next format c.assembler.pending).all fun popped => popped.1.length < 2 ^ 32
    | none => true
  | _ => true

/-- Every thread serves its client, and with any list that the program has or may still
make, every response is the one for its frame. -/
structure Inv (host : Endian) (text : SerializeField → Bytes) (config : ServerConfig)
    (s : SimpleServer) : Prop where
  serves : ∀ c ∈ s.clients, c.Serves
  answers : ∀ files, (∀ f, s.kFiles = some f → f = files) → ∀ c ∈ s.clients, ∀ answer ∈ c.answered,
    Answers host text config files answer
  sorted : ∀ files, s.kFiles = some files → files.Pairwise fun a b => filename a ≤ filename b

variable {s : SimpleServer}

theorem Inv.init : Inv host text config {} where
  serves := fun _ h => absurd h List.not_mem_nil
  answers := fun _ _ _ h => absurd h List.not_mem_nil
  sorted := fun _ h => (by cases h)

/-- A step of one thread that answers nothing. -/
theorem Inv.set (h : s.Inv host text config) {client : ℕ} {c c' : ClientThread} (hc : s.clients[client]? = some c)
    (hserves : c'.Serves) (hanswered : c'.answered = c.answered) :
    Inv host text config { s with clients := s.clients.set client c' } where
  serves := by
    intro d hd
    rcases List.mem_or_eq_of_mem_set hd with hold | rfl
    · exact h.serves d hold
    · exact hserves
  answers := by
    intro files hfiles d hd answer hanswer
    rcases List.mem_or_eq_of_mem_set hd with hold | rfl
    · exact h.answers files hfiles d hold answer hanswer
    · rw [hanswered] at hanswer
      exact h.answers files hfiles c (List.mem_of_getElem? hc) answer hanswer
  sorted := h.sorted

/-- A thread that answers a frame. -/
theorem Inv.answer (h : s.Inv host text config) {client : ℕ} {c c' : ClientThread}
    (hc : s.clients[client]? = some c)
    (hserves : c'.Serves) {frame respFrame : Bytes} (hanswered : c'.answered = c.answered ++ [(frame, respFrame)])
    (hresponds : respond host text config fs s.kFiles frame = .ok (respFrame, kFiles')) :
    Inv host text config { clients := s.clients.set client c', kFiles := kFiles' } := by
  obtain ⟨hlisted, hlater⟩ := respond_spec hresponds
  -- a list that may still be made is one that might have been made before
  have hbefore : ∀ files, (∀ f, kFiles' = some f → f = files) → ∀ f, s.kFiles = some f → f = files := by
    intro files hfiles f hf
    exact hfiles f (hlisted.kept f hf)
  refine ⟨?_, ?_, ?_⟩
  · intro d hd
    rcases List.mem_or_eq_of_mem_set hd with hold | rfl
    · exact h.serves d hold
    · exact hserves
  · intro files hfiles d hd answer hanswer
    rcases List.mem_or_eq_of_mem_set hd with hold | rfl
    · exact h.answers files (hbefore files hfiles) d hold answer hanswer
    · rw [hanswered] at hanswer
      rcases List.mem_append.1 hanswer with hold | hnew
      · exact h.answers files (hbefore files hfiles) c (List.mem_of_getElem? hc) answer hold
      · rw [List.mem_singleton.1 hnew]
        exact ⟨fs, hlater files hfiles⟩
  · intro files hfiles
    rcases hlisted.made files hfiles with hold | rfl
    · exact h.sorted files hold
    · exact listResourceFilesSorted_pairwise config fs

/-- **Every step keeps** what the threads have and do. -/
theorem Inv.step (h : s.Inv host text config) (action : SimpleServerAction)
    (hsmall : s.readsSmall action = true) :
    (SimpleServer.step host text config s action).Inv host text config := by
  cases action with
  | accept freshHeader =>
    refine ⟨?_, ?_, h.sorted⟩
    · intro c hc
      rcases List.mem_append.1 hc with hold | hnew
      · exact h.serves c hold
      · rw [List.mem_singleton.1 hnew]
        exact .new freshHeader
    · intro files hfiles c hc answer hanswer
      rcases List.mem_append.1 hc with hold | hnew
      · exact h.answers files hfiles c hold answer hanswer
      · rw [List.mem_singleton.1 hnew] at hanswer
        exact absurd hanswer List.not_mem_nil
  | recv client received =>
    simp only [SimpleServer.step]
    split
    · rename_i c hc
      split
      · rename_i hphase
        have hserves := (h.serves c (List.mem_of_getElem? hc)).recv hphase received
        refine h.set hc hserves ?_
        -- an error, the end of the stream, or bytes: none of them makes an answer
        rcases received with _ | _ | ⟨b, chunk⟩
        · rfl
        · rfl
        · rfl
      · exact h
    · exact h
  | popFrame client fs =>
    simp only [SimpleServer.step]
    split
    · rename_i c hc
      split
      · rename_i hphase
        split
        · rename_i c' kFiles' hpopped
          have hshort : ∀ f rest, next format c.assembler.pending = some (f, rest) → f.length < 2 ^ 32 := by
            intro f rest hnext
            simp only [readsSmall, hc, hnext, Option.all_some, decide_eq_true_eq] at hsmall
            exact hsmall
          -- no frame is complete, and the thread is back in `recv`; or one is answered
          obtain ⟨hserves, -, hidle | ⟨frame, respFrame, hanswered, hresponds⟩⟩ :=
            popFrame_spec host text config (h.serves c (List.mem_of_getElem? hc)) hphase hshort hpopped
          · rw [hidle.1]
            exact h.set hc hserves hidle.2
          · exact h.answer hc hserves hanswered hresponds
        · exact h
      · exact h
    · exact h
  | send client n =>
    simp only [SimpleServer.step]
    split
    · rename_i c hc
      split
      · rename_i rest hphase
        refine h.set hc ((h.serves c (List.mem_of_getElem? hc)).send hphase n) ?_
        unfold ClientThread.send
        split
        · rfl
        · rfl
      · exact h
    · exact h

/-- **Clients are served** in every run in which no frame has `2 ^ 32` bytes, whatever the
threads, their sockets and the file system do: the first frames that a client has sent are
answered, its socket has taken the beginning of the answers, and nothing is missing of
either when its thread is back in `recv`. All answers are made with one list of files. -/
theorem clients_served {actions : List SimpleServerAction}
    (hsmall : Run.Meets (fun s action => s.readsSmall action = true) (step host text config) ({} : SimpleServer)
      actions) :
    let s := actions.foldl (step host text config) ({} : SimpleServer)
    (∀ files, s.kFiles = some files → files.Pairwise fun a b => filename a ≤ filename b) ∧ ∀ c ∈ s.clients,
      c.answered.map Prod.fst <+: frames format c.received ∧ c.sent <+: (c.answered.map Prod.snd).flatten ∧
      (c.phase = .receiving → c.answered.map Prod.fst = frames format c.received ∧
        c.sent = (c.answered.map Prod.snd).flatten) ∧
      ∀ answer ∈ c.answered, Answers host text config (s.kFiles.getD []) answer := by
  intro s
  have h : s.Inv host text config :=
    hsmall.invariant (Inv host text config) (fun _ action h hok => h.step action hok) .init
  refine ⟨h.sorted, fun c hc => ?_⟩
  have hserves := h.serves c hc
  have hframes : ∀ f ∈ c.answered.map Prod.fst, IsFrame format f := by
    intro f hf
    obtain ⟨answer, hanswer, rfl⟩ := List.mem_map.1 hf
    exact hserves.isFrame answer hanswer
  -- the frames received are those answered and those still in the assembler
  have hall : frames format c.received = c.answered.map Prod.fst ++ frames format c.assembler.pending := by
    rw [← hserves.read, frames_append (by decide) hframes]
  refine ⟨?_, hserves.sent, fun hphase => ⟨?_, ?_⟩, h.answers _ ?_ c hc⟩
  · rw [hall]
    exact List.prefix_append _ _
  · rw [← hserves.read]
    exact (frames_eq (by decide) (hserves.waits hphase) hframes).symm
  · have hunsent := hserves.unsent [] (by rw [hphase]; rfl)
    rw [List.append_nil] at hunsent
    exact hunsent
  · intro f hf
    rw [hf]
    rfl

/-- A directory with these files, of three bytes each. -/
def threeBytesEach (paths : List Bytes) : FileSystem :=
  ⟨fun _ => paths, fun _ => some 3, fun _ => some [0x41, 0x42, 0x43]⟩

/-- A request for the file with the id 1. -/
def firstFile : Bytes := (ClientMessageCodec.buildDownloadRequestByteArray .little ⟨1, 1⟩ 7).toOption.getD []

/-- Two clients ask for it, one of them in two pieces; there is another first file by the
time the second is answered. Responses are taken in pieces. -/
def twoClients : List SimpleServerAction :=
  [.accept ⟨0, 0, 0, .none, 0, 0⟩, .accept ⟨0, 0, 0, .none, 0, 0⟩, .recv 0 (some (firstFile.take 20)),
    .popFrame 0 (threeBytesEach []), .recv 0 (some (firstFile.drop 20)),
    .popFrame 0 (threeBytesEach [ascii "d/b", ascii "d/a"]), .recv 1 (some firstFile),
    .popFrame 1 (threeBytesEach [ascii "d/0"]), .send 1 1000, .send 0 5, .popFrame 1 (threeBytesEach []),
    .send 0 1000, .popFrame 0 (threeBytesEach [])]

theorem clients_served_two :
    let s := twoClients.foldl (step .little (fun _ => []) { resourceFileDir := ascii "d" }) ({} : SimpleServer)
    (s.kFiles = some [ascii "d/a", ascii "d/b"] ∧ s.clients.map (fun c => c.answered.length) = [1, 1]) ∧
      (∀ files, s.kFiles = some files → files.Pairwise fun a b => filename a ≤ filename b) ∧ ∀ c ∈ s.clients,
        c.answered.map Prod.fst <+: frames format c.received ∧ c.sent <+: (c.answered.map Prod.snd).flatten ∧
        (c.phase = .receiving → c.answered.map Prod.fst = frames format c.received ∧
          c.sent = (c.answered.map Prod.snd).flatten) ∧
        ∀ answer ∈ c.answered,
          Answers .little (fun _ => []) { resourceFileDir := ascii "d" } (s.kFiles.getD []) answer :=
  ⟨by decide +kernel, clients_served (by decide +kernel)⟩

end SimpleServer

end ProjectTrans
