import RealtimeGame.Gateway.Identity

/-!
# Gateway/Lifecycle — how requests end

In every run, a request that has ended has ended with one status, one record and one count
(`finished_of_run`); and a Gateway that drains begins nothing new (`refused_after_shutdown`).
-/

open Library RealtimeGame.Common

namespace RealtimeGame.Gateway

/-- The calls that begin something, or are on the way to it. -/
def GatewayCall.serves : GatewayCall → Bool
  | .authenticate .. | .createSession .. | .enqueue .. | .cancel .. | .join .. | .submitAttack .. |
    .createProgressiveAttachment | .subscribe .. => true
  | _ => false

/-- A call that begins something is made by a service that was found open. -/
theorem serving_of_may {request : Request} {past : List Made} {call : GatewayCall} (hserves : call.serves = true)
    (hmay : request.May past call) : Request.Serving past := by
  cases call with
  | authenticate | createSession | subscribe => exact hmay.2.1
  | createProgressiveAttachment => exact hmay.2
  | enqueue | cancel | join | submitAttack => exact hmay.1
  | _ => cases hserves

namespace GatewayConfig

variable {c : GatewayConfig} {w : GatewayWorld} {old log : Log} {call : GatewayCall} {o : Oracle} {i : Nat}
  {ops ops' : List (Server.Op Request Oracle GatewayEvent)} {s t : State} {request : Request} {response : Response}

/-! ## Ends

What a method keeps to by itself it keeps to among others, for its answers may be anything. -/

/-- **Every request ends as it says** — in every run, whatever the stores and the services answered and whatever
other requests did in between. -/
theorem finished_of_run (hrun : Run c.server.Step { world := {} } ops t)
    (hthread : t.threads[i]? = some ⟨request, .ret response⟩) : request.Finished (Server.past t.log i) response :=
  (keeps_of_run hrun).thread i _ hthread

theorem exists_of_ended (h : (t.ended? i).isSome = true) :
    ∃ request response, t.threads[i]? = some ⟨request, .ret response⟩ := by
  obtain ⟨⟨request, response⟩, hended⟩ := Option.isSome_iff_exists.mp h
  exact ⟨request, response, Server.State.thread_of_ended? hended⟩

/-- What the HTTP response of a thread that has ended says. -/
def httpStatus? (t : State) (i : Nat) : Option Int := (t.ended? i).bind (·.2.httpStatus)

theorem exists_of_httpStatus? {status : Int} (h : httpStatus? t i = some status) :
    ∃ request response, t.threads[i]? = some ⟨request, .ret response⟩ ∧ response.httpStatus = some status := by
  obtain ⟨⟨request, response⟩, hended, hstatus⟩ := Option.bind_eq_some_iff.mp h
  exact ⟨request, response, Server.State.thread_of_ended? hended, hstatus⟩

/-- The request that came behind the logout. -/
theorem finished_of_run_aliceVisit :
    ∃ request response, (devGateway.server.after { world := {} } aliceVisit).threads[3]? =
        some ⟨request, .ret response⟩ ∧ response.httpStatus = some 401 ∧
      request.Finished (Server.past (devGateway.server.after { world := {} } aliceVisit).log 3) response := by
  obtain ⟨request, response, hthread, hstatus⟩ := exists_of_httpStatus?
    (by decide +kernel : httpStatus? (devGateway.server.after { world := {} } aliceVisit) 3 = some 401)
  exact ⟨request, response, hthread, hstatus, finished_of_run run_aliceVisit hthread⟩

/-! ## Draining

The log is split at the shutdown.  A request that did nothing before is told of it. -/

@[simp] theorem callRoom_draining {client : Option Room.Proto.RoomResponse → BrpcRoomClient.Outcome RoomSnapshot}
    {fate : Fate} {response : Room.RoomService.Response} {action : Room.Action} :
    (c.callRoom client fate response action w).2.draining = w.draining := by
  cases fate <;> rfl

/-- No call ends the draining. -/
theorem perform_draining : (c.perform call o w).2.draining = w.draining := by
  cases call with
  | join | submitAttack | getState => exact callRoom_draining
  | _ => rfl

/-- The service drains, and since the log was `old` nobody has been told otherwise. -/
structure Draining (old : Log) (w : GatewayWorld) (log : Log) : Prop where
  draining : w.draining = true
  since : ∃ suffix, log = old ++ suffix ∧ ∀ e ∈ suffix, e.made ≠ ⟨.isShuttingDown, false⟩

/-- **One call**: it is told of the shutdown, if it asks. -/
theorem Draining.perform (h : Draining old w log) (i : Nat) :
    Draining old (c.perform call o w).2 (log ++ [⟨i, o, call, (c.perform call o w).1⟩]) where
  draining := perform_draining.trans h.draining
  since := by
    obtain ⟨suffix, rfl, hsuffix⟩ := h.since
    refine ⟨suffix ++ [_], List.append_assoc .., fun e he hmade => ?_⟩
    rcases List.mem_append.mp he with he | he
    · exact hsuffix e he hmade
    · obtain rfl := List.mem_singleton.mp he
      obtain ⟨rfl, hanswer⟩ := Sigma.mk.inj hmade
      have hfalse : w.draining = false := eq_of_heq hanswer
      rw [h.draining] at hfalse
      cases hfalse

/-- **One event.** -/
theorem Draining.happen (h : Draining old w log) (event : GatewayEvent) : Draining old (c.happen event w) log := by
  cases event with
  | beginShutdown => exact ⟨rfl, h.since⟩
  | elapse | room => exact ⟨h.draining, h.since⟩

/-- **In every run** from the shutdown on. -/
theorem draining_of_run (hrun : Run c.server.Step { world := {} } ops s)
    (hrun' : Run c.server.Step s (.happen .beginShutdown :: ops') t) : Draining s.log t.world t.log := by
  obtain ⟨s', ⟨-, rfl⟩, hrest⟩ := Run.cons_iff.mp hrun'
  have hkeeps := keeps_of_run hrun
  exact Server.invariant (handle_meets c.service) (I := Draining s.log) (fun _ _ i _ _ _ h _ _ => h.perform i)
    (fun _ _ event h _ => h.happen event) hrest ⟨hkeeps.thread, hkeeps.fresh, hkeeps.log⟩
    ⟨rfl, [], (List.append_nil _).symm, by simp⟩

/-- What a request did before and after. -/
theorem past_append (log log' : Log) (i : Nat) :
    Server.past (log ++ log') i = Server.past log i ++ Server.past log' i := by
  rw [Server.past, List.filter_append, List.map_append]
  rfl

/-- A request that came too late is not told that the service is open. -/
theorem not_serving (hrun : Run c.server.Step { world := {} } ops s)
    (hrun' : Run c.server.Step s (.happen .beginShutdown :: ops') t) (hnew : Server.past s.log i = []) :
    ¬Request.Serving (Server.past t.log i) := by
  obtain ⟨suffix, hlog, hsuffix⟩ := (draining_of_run hrun hrun').since
  intro hserving
  rw [Request.Serving, hlog, past_append, hnew, List.nil_append] at hserving
  obtain ⟨e, he, -, hmade⟩ := Server.mem_past.mp hserving
  exact hsuffix e he hmade

/-- **A Gateway that drains begins nothing new** — whatever a request does that made no call before the shutdown,
it lets nobody in, it changes nothing in Match and Room and it opens no stream; and where its method is one that is
refused then, the player is told so. -/
theorem refused_after_shutdown (hrun : Run c.server.Step { world := {} } ops s)
    (hrun' : Run c.server.Step s (.happen .beginShutdown :: ops') t) (hnew : Server.past s.log i = []) :
    (∀ made ∈ Server.past t.log i, made.1.serves = false) ∧
      ∀ request response, t.threads[i]? = some ⟨request, .ret response⟩ → request.method.drains = true →
        response.statusCode = 503 ∧ response.error = some (drainingError request.requestId) := by
  have hclosed := not_serving hrun hrun' hnew
  have hkeeps := keeps_of_run (hrun.append hrun')
  refine ⟨fun made hmade => ?_, fun request response hthread hdrains => ?_⟩
  · by_contra hserves
    obtain ⟨e, he, rfl, rfl⟩ := Server.mem_past.mp hmade
    obtain ⟨pre, rest, hlog⟩ := List.append_of_mem he
    obtain ⟨request, -, hmay⟩ := hkeeps.log pre e rest hlog
    have hserving := serving_of_may (Bool.not_eq_false _ ▸ hserves) hmay
    refine hclosed ?_
    rw [Request.Serving, hlog, past_append]
    exact List.mem_append_left _ hserving
  · have hfinished := hkeeps.thread i _ hthread
    cases hfinished with
    | drained _ _ closed error => exact ⟨by rw [closed.status, error]; rfl, error⟩
    | served asked => exact absurd (List.mem_of_mem_head? (asked hdrains)) hclosed

/-- A login that comes a moment too late. -/
theorem refused_after_shutdown_aliceLogin :
    ∃ s t : State, Server.past s.log 0 = [] ∧ (∀ made ∈ Server.past t.log 0, made.1.serves = false) ∧
      ∃ request response, t.threads[0]? = some ⟨request, .ret response⟩ ∧ response.statusCode = 503 ∧
        response.error = some (drainingError request.requestId) := by
  have hrun : Run devGateway.server.Step { world := {} } [.start aliceLogin]
      (devGateway.server.after { world := {} } [.start aliceLogin]) := Server.Admitted.run ⟨trivial, trivial⟩
  have hrun' : Run devGateway.server.Step (devGateway.server.after { world := {} } [.start aliceLogin])
      [.happen .beginShutdown, .resume 0 aliceOracle, .resume 0 aliceOracle, .resume 0 aliceOracle]
      (devGateway.server.after (devGateway.server.after { world := {} } [.start aliceLogin])
        [.happen .beginShutdown, .resume 0 aliceOracle, .resume 0 aliceOracle, .resume 0 aliceOracle]) :=
    Server.Admitted.run (by decide +kernel)
  obtain ⟨hquiet, htold⟩ := refused_after_shutdown (i := 0) hrun hrun' rfl
  obtain ⟨request, response, hthread⟩ := exists_of_ended (i := 0) (t := devGateway.server.after
    (devGateway.server.after { world := {} } [.start aliceLogin])
    [.happen .beginShutdown, .resume 0 aliceOracle, .resume 0 aliceOracle, .resume 0 aliceOracle]) (by decide +kernel)
  have hlogin : some request = some aliceLogin := (congrArg (Option.map Server.Thread.request) hthread).symm
  have hdrains : request.method.drains = true := by rw [Option.some.inj hlogin]; rfl
  refine ⟨devGateway.server.after { world := {} } [.start aliceLogin], _, rfl, hquiet, request, response, hthread, ?_⟩
  exact htold request response hthread hdrains

end GatewayConfig

end RealtimeGame.Gateway
