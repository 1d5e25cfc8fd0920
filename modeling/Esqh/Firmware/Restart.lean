import Esqh.Firmware.Answers
import Esqh.Firmware.QueueRefinement

/-!
Initialising again forgets the past. `esqh_controller_init` does not clear the
entries of the queue, so two controllers may differ after it: in slots that
hold no queued frame, which no call ever returns.
-/

namespace Esqh

open Memory

/-- The controller with other entries in its queue. -/
def Controller.withEntries (c : Controller) (entries : Vector Frame frameQueueCapacity) :
    Controller :=
  { c with queue := { c.queue with entries := entries } }

/-- The controllers differ at most in slots of the queue that hold no frame: the
entries alone may differ, and the same frames are queued in both. -/
def Controller.Alike (c c' : Controller) : Prop :=
  ∃ entries frames, c' = c.withEntries entries ∧ c.queue.Holds frames ∧
    (c.withEntries entries).queue.Holds frames

section Queues

variable {queue queue' : FrameQueue} {frames : List Frame}

/-- Queues that hold the same frames answer alike and hold the same frames again. -/
theorem queueStep_alike (h : queue.Holds frames) (h' : queue'.Holds frames) (call : QueueCall) :
    (queueStep queue call).1 = (queueStep queue' call).1 ∧
      ∃ frames', (queueStep queue call).2.Holds frames' ∧
        (queueStep queue' call).2.Holds frames' := by
  obtain ⟨hreply, hholds⟩ := queueStep_holds h call
  obtain ⟨hreply', hholds'⟩ := queueStep_holds h' call
  exact ⟨hreply.trans hreply'.symm, _, hholds, hholds'⟩

end Queues

/-- A call is answered alike with other entries that hold the same frames. -/
theorem Answers.alike {c c' : Controller} {x : Exchange} (h : Answers c x c')
    {entries : Vector Frame frameQueueCapacity} {frames : List Frame}
    (hholds : c.queue.Holds frames) (hentries : (c.withEntries entries).queue.Holds frames) :
    ∃ entries' frames', Answers (c.withEntries entries) x (c'.withEntries entries') ∧
      c'.queue.Holds frames' ∧ (c'.withEntries entries').queue.Holds frames' := by
  cases h with
  | queueFull hadmits hfull =>
      exact ⟨entries, frames, .queueFull hadmits hfull, hholds, hentries⟩
  | @frameAccepted frame hadmits hspace =>
      obtain ⟨_, frames', hafter, hafter'⟩ :=
        queueStep_alike hholds hentries (.push (some frame))
      obtain ⟨entries', hqueue⟩ := queuePush_entries c.queue entries frame frame
      have hpushed : (queuePush (c.withEntries entries).queue (some frame)).2 =
          { (queuePush c.queue (some frame)).2 with entries := entries' } := hqueue
      have hanswer : Answers (c.withEntries entries) _ _ := .frameAccepted hadmits hspace
      rw [hpushed] at hanswer
      refine ⟨entries', frames', hanswer, hafter, ?_⟩
      have hheld : (queuePush (c.withEntries entries).queue (some frame)).2.Holds frames' :=
        hafter'
      rw [hpushed] at hheld
      exact hheld
  | queueEmpty hempty => exact ⟨entries, frames, .queueEmpty hempty, hholds, hentries⟩
  | @framePopped destination frame hne hframe =>
      obtain ⟨hreply, frames', hafter, hafter'⟩ :=
        queueStep_alike hholds hentries (.pop (some destination))
      have hframe' : (queuePop (c.withEntries entries).queue (some destination)).2.2 =
          some frame := by
        rw [← hframe]
        exact (QueueReply.popped.inj hreply).2.symm
      have hpopped : (queuePop (c.withEntries entries).queue (some destination)).2.1 =
          { (queuePop c.queue (some destination)).2.1 with entries := entries } :=
        queuePop_entries c.queue entries destination destination
      have hanswer : Answers (c.withEntries entries) _ _ := .framePopped hne hframe'
      rw [hpopped] at hanswer
      refine ⟨entries, frames', hanswer, hafter, ?_⟩
      have hheld : (queuePop (c.withEntries entries).queue (some destination)).2.1.Holds
          frames' := hafter'
      rw [hpopped] at hheld
      exact hheld
  | recordWritten => exact ⟨entries, frames, .recordWritten, hholds, hentries⟩
  | _ => exact ⟨entries, frames, by constructor <;> assumption, hholds, hentries⟩

theorem step_alike {c c' : Controller} (h : c.Alike c') (call : Call) :
    (step c call).1 = (step c' call).1 ∧ (step c call).2.Alike (step c' call).2 := by
  obtain ⟨entries, frames, rfl, hholds, hentries⟩ := h
  obtain ⟨entries', frames', hanswer, hholds', hentries'⟩ :=
    (step_answers c call).alike hholds hentries
  have hstep := hanswer.step_eq
  rw [hstep]
  exact ⟨rfl, entries', frames', rfl, hholds', hentries'⟩

theorem init_alike (memory memory' : Controller) {config : Config} (h : config.Valid) :
    (controllerInit memory (some config)).Alike (controllerInit memory' (some config)) := by
  have hvalid : configIsValid (some config) = .ok true := h
  rw [controllerInit, controllerInit, if_pos hvalid, if_pos hvalid]
  exact ⟨memory'.queue.entries, [], rfl, ⟨_, queueInit_represents memory.queue, rfl⟩,
    ⟨_, queueInit_represents memory'.queue, rfl⟩⟩

/-- After an initialisation with a valid configuration every reply is a function
of the configuration and the calls since: what the controller went through
before, and what it held, is not seen again. It stays in no field but the entries
of the queue, and there in no slot that holds a frame. -/
theorem run_init_forgets (memory memory' : Controller) (config : Config) (h : config.Valid)
    (calls : List Call) :
    let r := run memory config calls
    let r' := run memory' config calls
    r'.history = r.history ∧ r'.state.queue.frames = r.state.queue.frames ∧
      r'.state = { r.state with
        queue := { r.state.queue with entries := r'.state.queue.entries } } := by
  intro r r'
  obtain ⟨hhistory, entries, frames, hstate, hholds, hentries⟩ :=
    Machine.run_simulates step step Controller.Alike (init_alike memory memory' h)
      (fun _ _ call halike => step_alike halike call) calls
  have hqueue : r'.state.queue = (r.state.withEntries entries).queue :=
    congrArg Controller.queue hstate
  refine ⟨hhistory.symm, ?_, ?_⟩
  · rw [hqueue]
    exact hentries.frames_eq.trans hholds.frames_eq.symm
  · rw [hqueue]
    exact hstate

/-- Zeroed memory, and a controller with a frame left in its queue. -/
theorem run_init_forgets_frame :
    let frame := { zeroFrame with interfaceType := interfaceCan }
    let used := (run zeroController defaultConfig [.receive (some frame)]).state
    let calls := [.queuePop (some zeroFrame)]
    (run used defaultConfig calls).history = (run zeroController defaultConfig calls).history ∧
      (run used defaultConfig calls).state.queue.count =
        (run zeroController defaultConfig calls).state.queue.count := by
  intro frame used calls
  obtain ⟨hhistory, _, hstate⟩ :=
    run_init_forgets zeroController used defaultConfig defaultConfig_valid calls
  exact ⟨hhistory, congrArg (fun c => c.queue.count) hstate⟩

end Esqh
