import EvmDispatch.Backend.Plugin
import EvmDispatch.Backend.Scripted

/-!
# The plugin boundary is transparent

A host that drives a backend through its table gets the answers that the backend gives by itself.
What crosses the boundary is a raw copy: a message comes back from it as it was, and so does a step
whose status survives as a number. The proof is a simulation: between two requests no tracer is
installed, and the state behind the table is that of the backend (`Exported.Represents`). A single
request keeps this and has the same answer on both sides (`answerBehind_ofBackend`), and so has
every sequence of requests.
-/

namespace EvmDispatch

/-- A backend whose statuses all survive as numbers, in answers and in steps. -/
def Backend.Canonical (b : Backend) : Prop :=
  ∀ s r message observed,
    (b.execute s r message observed).1.status.Canonical ∧
      ∀ step ∈ (b.execute s r message observed).1.steps, step.status.Canonical

/-- No number of a status is lost. -/
theorem Status.raw_ofRaw (code : Int) : (ofRaw code).raw = code := by
  unfold ofRaw
  cases hfound : named.find? fun s => s.2.raw == code with
  | none => rfl
  | some s =>
    have hraw := List.find?_some hfound
    exact beq_iff_eq.mp hraw

theorem OptionAnswer.ofRaw_raw (answer : OptionAnswer) : ofRaw answer.raw = answer := by
  cases answer <;> rfl

theorem Revision.ofRaw?_raw (r : Revision) : ofRaw? r.raw = some r := by
  cases r <;> rfl

namespace Plugin

/-! ## Requests and answers -/

/-- What a host asks of a backend. -/
inductive Request where
  | option (name value : String)
  | call (r : Revision) (message : Message) (observer : Option Context)

/-- What a host gets. -/
inductive Answer where
  | option (answer : OptionAnswer)
  /-- The answer to a call, and who has been told of which steps. -/
  | call (status : Status) (gasLeft : Int) (output : Bytes) (told : List (Context × Step))
deriving DecidableEq

/-- The steps for an observer, if there is one. -/
def toldTo (observer : Option Context) (steps : List Step) : List (Context × Step) :=
  match observer with
  | some c => steps.map fun step => (c, step)
  | none => []

/-- The answer of a backend with nothing in between. Only texts with a null character are kept from
it: such a name counts as unknown, and such a value as one that the option does not take. -/
def answerOf (b : Backend) (s : b.State) : Request → Answer × b.State
  | .option name value =>
    if '\x00' ∈ name.toList then (.option .invalidName, s)
    else if '\x00' ∈ value.toList then (.option .invalidValue, s)
    else
      let (answer, s) := b.setOption s name value
      (.option answer, s)
  | .call r message observer =>
    let (reply, s) := b.execute s r message observer.isSome
    (.call reply.status reply.gasLeft reply.output (toldTo observer reply.steps), s)

/-- The answer that a host gets through a table. -/
def answerBehind (t : Table) (s : t.State) : Request → Answer × t.State
  | .option name value =>
    let (answer, s) := t.askOption s name value
    (.option answer, s)
  | .call r message observer =>
    let (reply, told, s) := t.callFor s r message observer
    (.call reply.status reply.gasLeft reply.output told, s)

/-- Makes requests one after the other, and collects the answers. -/
def drive {σ : Type} (answer : σ → Request → Answer × σ) (s : σ) : List Request → List Answer × σ
  | [] => ([], s)
  | request :: rest =>
    let (first, s) := answer s request
    let (answers, s) := drive answer s rest
    (first :: answers, s)

/-! ## One request -/

variable {b : Backend}

theorem isCarried_iff {text : String} : isCarried text = true ↔ '\x00' ∉ text.toList := by
  simp [isCarried]

theorem carried_eq (text : String) :
    carried text = if '\x00' ∈ text.toList then "" else text := by
  rw [carried]
  by_cases h : '\x00' ∈ text.toList
  · rw [if_pos h, if_neg (fun hcarried => isCarried_iff.mp hcarried h)]
  · rw [if_neg h, if_pos (isCarried_iff.mpr h)]

/-- Between two requests no tracer is installed, and behind the table the backend is in its state,
whatever the buffer holds. -/
structure Exported.Represents (e : Exported b) (s : b.State) : Prop where
  state : e.state = s
  tracer : e.tracer = none

/-- Every step that a library can tell comes to the host as it was told. -/
theorem RawStep.ofStep_toStep (raw : RawStep) : ofStep raw.toStep = raw := by
  simp only [ofStep, toStep, Status.raw_ofRaw, Pointer.ofOption_target?]

/-- Steps with statuses that survive as numbers come back as they were. -/
theorem toStep_toldTo {steps : List Step} (h : ∀ step ∈ steps, step.status.Canonical)
    (observer : Option Context) :
    ((toldTo observer steps).map fun told => (told.1, RawStep.ofStep told.2)).map
      (fun told => (told.1, told.2.toStep)) = toldTo observer steps := by
  cases observer with
  | none => rfl
  | some c =>
    rw [toldTo, List.map_map, List.map_map]
    refine List.map_congr_left fun step hstep => ?_
    exact congrArg (c, ·) (RawStep.toStep_ofStep (h step hstep))

/-- The table makes the call of the host to the backend, under the revision that the host has
chosen, tells the observer of the installed tracer, and keeps the output in the buffer. -/
theorem Exported.execute_raw (e : Exported b) (r : Revision) (message : Message) :
    e.execute r.raw (.ofMessage message) =
      let (reply, state) := b.execute e.state r message e.tracer.isSome
      ({ status := reply.status.raw, gasLeft := reply.gasLeft, outputData := .valid ()
         outputSize := reply.output.length },
        (toldTo e.tracer reply.steps).map fun told => (told.1, RawStep.ofStep told.2),
        { e with state, buffer := reply.output }) := by
  unfold execute
  rw [Revision.ofRaw?_raw, RawMessage.toMessage_ofMessage]
  cases e.tracer with
  | none => rfl
  | some c =>
    simp only [toldTo, List.map_map]
    rfl

/-- What the host makes of an answer that has crossed the boundary. Afterwards no tracer is left. -/
theorem callFor_ofBackend (h : b.Canonical) (e : Exported b) (he : e.tracer = none)
    (r : Revision) (message : Message) (observer : Option Context) :
    let (reply, state) := b.execute e.state r message observer.isSome
    (Table.ofBackend b).callFor e r message observer =
      ({ reply with steps := (toldTo observer reply.steps).map (·.2) },
        toldTo observer reply.steps, { state, tracer := none, buffer := reply.output }) := by
  obtain ⟨hstatus, hsteps⟩ := h e.state r message observer.isSome
  obtain ⟨s, tracer, buffer⟩ := e
  obtain rfl : tracer = none := he
  -- while the call lasts, the tracer is that of the observer, whether there is one or not
  have hexecute := Exported.execute_raw ⟨s, observer, buffer⟩ r message
  generalize b.execute s r message observer.isSome = answered at *
  obtain ⟨reply, state⟩ := answered
  have htold := toStep_toldTo hsteps observer
  have hcall : (Table.ofBackend b).callFor ⟨s, none, buffer⟩ r message observer =
      ({ status := .ofRaw reply.status.raw
         gasLeft := reply.gasLeft
         output := (RawSlice.ofBytes reply.output).bytes
         steps := (((toldTo observer reply.steps).map fun told =>
           (told.1, RawStep.ofStep told.2)).map fun told => (told.1, told.2.toStep)).map (·.2) },
        ((toldTo observer reply.steps).map fun told =>
          (told.1, RawStep.ofStep told.2)).map fun told => (told.1, told.2.toStep),
        { state, tracer := none, buffer := reply.output }) := by
    cases observer with
    | none =>
      simp only [Table.callFor, Table.ofBackend, hexecute]
      rfl
    | some c =>
      simp only [Table.callFor, Table.ofBackend, hexecute]
      rfl
  rw [hcall, htold, hstatus, RawSlice.bytes_ofBytes]

/-- An option gets as far as an exported backend if both of its texts are carried. -/
theorem askOption_ofBackend (e : Exported b) (name value : String) :
    (Table.ofBackend b).askOption e name value =
      if '\x00' ∈ name.toList then (.invalidName, e)
      else if '\x00' ∈ value.toList then (.invalidValue, e)
      else
        let (answer, state) := b.setOption e.state name value
        (answer, { e with state }) := by
  have hname : (!isCarried name) = decide ('\x00' ∈ name.toList) := by simp [isCarried]
  have hvalue : (!isCarried value) = decide ('\x00' ∈ value.toList) := by simp [isCarried]
  simp only [Table.askOption, hname, hvalue, decide_eq_true_eq, Table.ofBackend,
    OptionAnswer.ofRaw_raw]

/-- A single request has the same answer through the table, which stays in step with the
backend. -/
theorem answerBehind_ofBackend (h : b.Canonical) {e : Exported b} {s : b.State}
    (he : e.Represents s) (request : Request) :
    (answerBehind (.ofBackend b) e request).1 = (answerOf b s request).1 ∧
      Exported.Represents (answerBehind (.ofBackend b) e request).2 (answerOf b s request).2 := by
  obtain ⟨rfl, htracer⟩ := he
  cases request with
  | option name value =>
    simp only [answerBehind, askOption_ofBackend, answerOf]
    split
    · exact ⟨rfl, rfl, htracer⟩
    · split
      · exact ⟨rfl, rfl, htracer⟩
      · exact ⟨rfl, rfl, htracer⟩
  | call r message observer =>
    simp only [answerBehind, callFor_ofBackend h e htracer, answerOf, true_and]
    exact ⟨rfl, rfl⟩

theorem toldTo_snd (observer : Option Context) (steps : List Step) :
    toldTo observer
        ((toldTo (if observer.isSome then some hostContext else none) steps).map (·.2)) =
      toldTo observer steps := by
  cases observer with
  | none => rfl
  | some c => simp [toldTo]

/-- A backend behind a table is a backend again, with the same answers. -/
theorem answerOf_backend (h : b.Canonical) {e : Exported b} {s : b.State}
    (he : e.Represents s) (request : Request) :
    (answerOf (Table.ofBackend b).backend e request).1 = (answerOf b s request).1 ∧
      Exported.Represents (answerOf (Table.ofBackend b).backend e request).2
        (answerOf b s request).2 := by
  obtain ⟨rfl, htracer⟩ := he
  cases request with
  | option name value =>
    simp only [answerOf, Table.backend, askOption_ofBackend]
    split
    · exact ⟨rfl, rfl, htracer⟩
    · split
      · exact ⟨rfl, rfl, htracer⟩
      · exact ⟨rfl, rfl, htracer⟩
  | call r message observer =>
    have hobserved : (if observer.isSome then some hostContext else none).isSome =
        observer.isSome := by
      cases observer <;> rfl
    simp only [answerOf, Table.backend, Table.call, callFor_ofBackend h e htracer, hobserved,
      toldTo_snd, true_and]
    exact ⟨rfl, rfl⟩

/-! ## Sequences of requests -/

/-- Two sides that answer every request alike and stay in step answer every sequence of requests
alike. -/
theorem drive_simulates {σ τ : Type} {answer : σ → Request → Answer × σ}
    {answer' : τ → Request → Answer × τ} {R : σ → τ → Prop}
    (step : ∀ s t request, R s t →
      (answer s request).1 = (answer' t request).1 ∧ R (answer s request).2 (answer' t request).2)
    {s : σ} {t : τ} (h : R s t) (requests : List Request) :
    (drive answer s requests).1 = (drive answer' t requests).1 ∧
      R (drive answer s requests).2 (drive answer' t requests).2 := by
  induction requests generalizing s t with
  | nil => exact ⟨rfl, h⟩
  | cons request rest ih =>
    obtain ⟨hfirst, hnext⟩ := step s t request h
    obtain ⟨hanswers, hlast⟩ := ih hnext
    refine ⟨?_, hlast⟩
    show (answer s request).1 :: (drive answer (answer s request).2 rest).1 = _
    rw [hfirst, hanswers]
    rfl

/-- The boundary is transparent for every backend whose statuses survive as numbers, and for every
sequence of requests. Through its table the backend gives the answers that it gives by itself, each
observer is told the steps of its own call and of no other, and afterwards the backend is in the
same state. The backend that a host adopts answers alike. Of names and versions the host sees those
without a null character. -/
theorem ofBackend_transparent (b : Backend) (h : b.Canonical) (requests : List Request) :
    let t := Table.ofBackend b
    let direct := drive (answerOf b) b.start requests
    let behind := drive (answerBehind t) t.start requests
    behind.1 = direct.1 ∧ Exported.Represents behind.2 direct.2 ∧
      ∃ foreign, adopt (some t) = .ok foreign ∧
        foreign.name = (if '\x00' ∈ b.name.toList then "" else b.name) ∧
        foreign.version = (if '\x00' ∈ b.version.toList then "" else b.version) ∧
        (drive (answerOf foreign) foreign.start requests).1 = direct.1 := by
  intro t direct behind
  have hstart : Exported.Represents t.start b.start := ⟨rfl, rfl⟩
  obtain ⟨hanswers, hlast⟩ :=
    drive_simulates (R := Exported.Represents)
      (fun _ _ request he => answerBehind_ofBackend h he request) hstart requests
  obtain ⟨hforeign, -⟩ :=
    drive_simulates (R := Exported.Represents)
      (fun _ _ request he => answerOf_backend h he request) hstart requests
  exact ⟨hanswers, hlast, t.backend, rfl, carried_eq b.name, carried_eq b.version, hforeign⟩

/-- A script with one step, driven by an option that cannot be carried, one that can, and calls for
two observers and for none. -/
theorem ofBackend_transparent_script :
    let step : Step :=
      { index := 0, codeOffset := 0, opcode := 0, status := .outOfGas, gasLeft := 3, stackDepth := 1
        pushed := some (.ofNat 7), memorySize := 0 }
    let b := ({ name := "a\x00b", options := [("limit", .accepted)], output := none
                steps := [step] } : Script).backend
    let requests : List Request :=
      [.option "limit\x00" "7", .option "limit" "7\x00", .option "limit" "7",
        .call .frontier { input := [1, 2] } (some 5), .call .byzantium { gas := 4 } none,
        .call .homestead {} (some 6)]
    (drive (answerBehind (.ofBackend b)) (Table.ofBackend b).start requests).1 =
      [.option .invalidName, .option .invalidValue, .option .accepted,
        .call .success 0 [1, 2] [(5, step)], .call .success 4 [] [],
        .call .success 0 [] [(6, step)]] := by
  intro step b requests
  have hcanonical : b.Canonical := by
    intro s r message observed
    have hsuccess : Status.success.Canonical := by decide
    have hgas : Status.outOfGas.Canonical := by decide
    refine ⟨hsuccess, fun given hgiven => ?_⟩
    cases observed with
    | false => cases hgiven
    | true =>
      obtain rfl := List.mem_singleton.mp hgiven
      exact hgas
  exact (ofBackend_transparent b hcanonical requests).1.trans (by rfl)

end Plugin

end EvmDispatch
