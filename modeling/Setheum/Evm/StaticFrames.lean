import Setheum.Evm.Operations

/-!
# Static frames

A `STATICCALL`, and everything below it, should change nothing. The handler keeps a contract's
code from writing, creating and destroying there, and from moving value. It does not tell a
precompile that the frame is static.

* `visits` — every frame that a run of a code enters, with the worlds before and after.
* `exec_static` — in a static frame, a code changes no more than the precompiles it calls.
* `static_keep_iff` — so all static frames leave the world as it was exactly if no action of a
  precompile that is called in one writes with effect.
-/

set_option autoImplicit false

namespace Setheum.Evm

open Dispatch

variable {A N : Type} [DecidableEq A] (p : Params A N)

/-! ## The frames of a run -/

/-- A frame that a call enters: what is asked of a precompile, what a pallet does at that, and the
worlds around the frame. -/
structure Visit (A N : Type) where
  isStatic : Bool
  request : Option Request
  pallet : Outcome A N
  before : World A N
  after : World A N

/-- The frame runs an action that writes. -/
def Visit.performs (v : Visit A N) : Bool :=
  match v.request with
  | some (.perform action) => action.writes
  | _ => false

/-- The frame leaves the world as it was. -/
def Visit.Keeps (v : Visit A N) : Prop := v.after = v.before

/-- What the pallet does fails or has no effect. -/
def Visit.Harmless (v : Visit A N) : Prop :=
  v.pallet.reason = .succeed → v.pallet.world = v.before

/-- The world that the code of a call starts in. -/
def World.sent (transfer : Option Transfer) (w : World A N) : Except Error (World A N) :=
  transfer.elim (.ok w) fun t => w.transfer p t

/-- The frames that one call enters: its own, once the value is sent, and those below. The code of
a precompile enters no frame unless its action writes. -/
def callVisits (visit : World A N → Visit A N) (below : Bool → World A N → List (Visit A N)) :
    Except Error (World A N) → List (Visit A N)
  | .ok w =>
      match (visit w).request with
      | none => visit w :: below false w
      | some _ => if (visit w).performs then visit w :: below true w else [visit w]
  | .error _ => []

/-- The frames that calls enter in a run of a script, each before those below it. -/
def visits : Script A N → EvmAddress → Bool → Frame A → World A N → List (Visit A N)
  | .exit _ _, _, _, _, _ => []
  | .setStorage index value next, origin, false, f, w =>
      match setStorage f index value w.toChain with
      | some (f', s) => visits next origin false f' (w.withChain s)
      | none => []
  | .create salt value init next, origin, false, f, w =>
      let r := Handler.create p origin (exec p init origin false) salt value f w
      let w₁ := w.incNonce f.meter.contract
      let below : List (Visit A N) :=
        if f.isStatic then []
        else
          match w.createAddress p (Handler.creationScheme f salt) with
          | none => []
          | some address =>
              match w₁.transfer p ⟨f.meter.contract, address, value⟩ with
              | .ok w₂ =>
                  visits init origin false
                    ⟨f.meter.childMeter address, f.isStatic, true, w₁.toChain⟩ w₂
              | .error _ => []
      below ++ visits next origin false r.2.1 r.2.2
  | .call target scheme callee next, origin, false, f, w =>
      let r := Handler.call p origin (exec p callee origin false) (exec p callee origin true)
        target scheme.transfer scheme.isStatic f w
      let request := AllPrecompiles.request target.codeAddress target.input target.caller
      let child : Frame A :=
        ⟨f.meter.childMeter target.address, f.isStatic || scheme.isStatic, false, w.toChain⟩
      let visit (w₁ : World A N) : Visit A N :=
        ⟨f.isStatic || scheme.isStatic, request, exec p callee origin true child w₁, w, r.2.2⟩
      let below : List (Visit A N) :=
        if f.isStatic && scheme.transfer.isSome then []
        else
          callVisits visit (fun native w₁ => visits callee origin native child w₁)
            (w.sent p scheme.transfer)
      below ++ visits next origin false r.2.1 r.2.2
  | .pallets change next, origin, true, f, w =>
      match change w.currency w.pallets with
      | some (currency, pallets) =>
          visits next origin true f
            { w.moved p { w.toChain with currency := currency } with pallets := pallets }
      | none => []
  | .transferMaintainer who contract newMaintainer next, origin, true, f, w =>
      match (doTransferMaintainer p who contract newMaintainer).run w with
      | .ok _ w' => visits next origin true f w'
      | .error _ _ => []
  | .execute context value storageLimit mode callee next, origin, true, f, w =>
      let w₁ := w.incNonce context.sender
      let below : List (Visit A N) :=
        if w.canCallContract context.contract context.sender then
          match reserveStorage p.toConfig context.origin storageLimit w₁.toChain with
          | .ok s =>
              match (w₁.withChain s).transfer p ⟨context.sender, context.contract, value⟩ with
              | .ok w₂ =>
                  visits callee context.origin false
                    ⟨.new context.contract storageLimit, false, false, w₁.toChain⟩ w₂
              | .error _ => []
          | .error _ => []
        else []
      below ++ visits next origin true f
        (execute p (exec p callee context.origin false) context value storageLimit mode w)
  | _, _, _, _, _ => []

/-! ## What a frame hands back -/

variable {p} {R : Type} {origin contract : EvmAddress} {isStatic creates : Bool}
  {f f' : Frame A} {w : World A N}

/-- The frame is the same but for charges that were made below it. -/
structure Frame.Resumes (f f' : Frame A) : Prop where
  isStatic : f'.isStatic = f.isStatic
  selfUsed : f'.meter.selfUsed = f.meter.selfUsed
  selfRefunded : f'.meter.selfRefunded = f.meter.selfRefunded

omit [DecidableEq A] in
theorem Frame.Resumes.rfl : Frame.Resumes f f := ⟨Eq.refl _, Eq.refl _, Eq.refl _⟩

omit [DecidableEq A] in
theorem Frame.Resumes.trans {f'' : Frame A} (h : Frame.Resumes f f')
    (h' : Frame.Resumes f' f'') : Frame.Resumes f f'' :=
  ⟨h'.isStatic.trans h.isStatic, h'.selfUsed.trans h.selfUsed,
    h'.selfRefunded.trans h.selfRefunded⟩

omit [DecidableEq A] in
theorem Frame.resumes_hear (g : Frame A) : Frame.Resumes f (f.hear g) :=
  ⟨Eq.refl _, Eq.refl _, Eq.refl _⟩

variable (p origin f w) in
/-- Settling a frame inside another one. -/
theorem settle_eq (g : Frame A) :
    settle p origin [f] g w
      = if g.meter.limit < g.meter.totalUsed - g.meter.totalRefunded then
          ([f], .error (.finish .OutOfStorage))
        else
          ([{ f with meter := f.meter.book g.meter.selfUsed g.meter.selfRefunded }],
            match chargeStorage p.toConfig origin g.meter.contract g.meter.selfUsed
              g.meter.selfRefunded w.toChain with
            | .ok s => .ok (w.moved p s)
            | .error e => .error (.finish (.currency e))) := by
  unfold settle StorageMeter.finish
  by_cases hlimit : g.meter.limit < g.meter.totalUsed - g.meter.totalRefunded
  · simp only [if_pos hlimit]
  · simp only [if_neg hlimit, chargeThrough]
    cases chargeStorage p.toConfig origin g.meter.contract g.meter.selfUsed
      g.meter.selfRefunded w.toChain <;> rfl

variable (p origin w) in
/-- Settling a frame leaves the frame around it but for the charge. -/
theorem settle_resumes (g d : Frame A) :
    Frame.Resumes f ((settle p origin [f] g w).1.headD d) := by
  rw [settle_eq]
  split
  · exact .rfl
  · exact ⟨rfl, rfl, rfl⟩

/-- The frame that another one was entered from resumes. -/
theorem runSubTransaction_resumes
    (body : Frame A → World A N → TransactionOutcome A N R) :
    Frame.Resumes f (runSubTransaction p origin contract isStatic creates body f w).2.1 := by
  unfold runSubTransaction
  dsimp only
  generalize body _ _ = t
  cases t.commits with
  | false => exact f.resumes_hear t.frame
  | true =>
      rw [if_pos rfl]
      have hhear := f.resumes_hear t.frame
      have hsettled := hhear.trans (settle_resumes p origin t.world t.frame f)
      generalize settle p origin [f.hear t.frame] t.frame t.world = settled at hsettled ⊢
      obtain ⟨outer, ending⟩ := settled
      cases ending with
      | ok w' => exact hsettled
      | error e => exact hsettled

/-- A frame that counted nothing of its own settles without a trace, if it does. -/
theorem settle_world {g : Frame A} (hg : g.meter.selfUsed = g.meter.selfRefunded) {w' : World A N}
    (h : (settle p origin [f] g w).2 = .ok w') : w' = w := by
  rw [settle_eq] at h
  split at h
  · cases h
  · rw [chargeStorage, if_pos hg] at h
    cases h
    show w.moved p w.toChain = w
    rw [World.moved, p.reaped_self]
    rfl

/-! ## Static frames -/

/-- What a run of a code in a static frame may leave behind. -/
structure Unchanged (f : Frame A) (w : World A N) (o : Outcome A N) : Prop where
  resumes : Frame.Resumes f o.frame
  world : o.world = w

omit [DecidableEq A] in
theorem Unchanged.failed : Unchanged f w (.failed f w) := ⟨.rfl, rfl⟩

/-- A call that sends nothing and whose code changes nothing leaves the world as it was. -/
theorem call_unchanged {code pallet : Interpreter A N} {target : CallTarget}
    (h : let g : Frame A :=
        ⟨f.meter.childMeter target.address, f.isStatic || isStatic, false, w.toChain⟩
      Unchanged g w (Handler.callee code pallet target g w)) :
    (Handler.call p origin code pallet target none isStatic f w).2.2 = w := by
  unfold Handler.call
  rw [Option.isSome_none, Bool.and_false, if_neg Bool.false_ne_true]
  obtain ⟨f', hx⟩ := runSubTransaction_cases p origin target.address (f.isStatic || isStatic)
    false (messageCall p (Handler.callee code pallet target) none) f w
  obtain ⟨-, hx⟩ | ⟨-, w', hsettle, hx⟩ | ⟨-, e, -, hx⟩ := hx
  · simp only [hx]
  · have hself := h.resumes.selfUsed.trans h.resumes.selfRefunded.symm
    have hw' := settle_world hself hsettle
    simp only [hx]
    exact hw'.trans h.world
  · simp only [hx]

/-- A frame that has counted nothing settles. -/
theorem settle_fresh {g : Frame A} {limit : ℕ} (hg : g.meter = .new contract limit) :
    (settle p origin [f] g w).2 = .ok w := by
  rw [settle_eq, hg, if_neg (by simp [StorageMeter.new])]
  show (match chargeStorage p.toConfig origin contract 0 0 w.toChain with
    | .ok s => Except.ok (w.moved p s)
    | .error e => .error (Error.finish (.currency e))) = _
  rw [chargeStorage, if_pos rfl]
  show Except.ok (w.moved p w.toChain) = _
  rw [World.moved, p.reaped_self]
  rfl

/-- A pallet does not touch the frame of the precompile. -/
theorem exec_pallet_frame (script : Script A N) :
    ∀ {f : Frame A} {w : World A N}, (exec p script origin true f w).frame = f := by
  induction script with
  | exit reason output => exact rfl
  | setStorage index value next ih => exact rfl
  | markDelete target => exact rfl
  | create salt value init next ihInit ihNext => exact rfl
  | call target scheme callee next ihCallee ihNext => exact rfl
  | pallets change next ih =>
      intro f w
      rw [exec]
      split
      · exact ih
      · rfl
  | transferMaintainer who contract newMaintainer next ih =>
      intro f w
      rw [exec]
      split
      · exact ih
      · rfl
  | execute context value storageLimit mode callee next ihCallee ihNext => exact ihNext

omit [DecidableEq A] in
theorem Visit.performs_action {v : Visit A N} (h : v.performs = true) :
    ∃ action, v.request = some (.perform action) ∧ action.writes = true := by
  unfold performs at h
  split at h
  · rename_i action hrequest
    exact ⟨action, hrequest, h⟩
  · cases h

/-- A static call of an action that writes leaves what the pallet does, if that succeeds. -/
theorem perform_world {target : CallTarget} {callee : Script A N} {code : Interpreter A N}
    {action : PrecompileAction}
    (hrequest : AllPrecompiles.request target.codeAddress target.input target.caller
      = some (.perform action)) (hwrites : action.writes = true) :
    let child : Frame A :=
      ⟨f.meter.childMeter target.address, f.isStatic || isStatic, false, w.toChain⟩
    let o := exec p callee origin true child w
    (Handler.call p origin code (exec p callee origin true) target none isStatic f w).2.2
      = if o.reason = .succeed then o.world else w := by
  intro child o
  have hbody : messageCall p (Handler.callee code (exec p callee origin true) target) none child w
      = ⟨.ok ⟨o.reason, o.output⟩, o.reason = .succeed, child, o.world⟩ := by
    have hframe : o.frame = child := exec_pallet_frame callee
    have hcallee : Handler.callee code (exec p callee origin true) target child w = o := by
      rw [Handler.callee, hrequest]
      exact if_pos hwrites
    show (⟨.ok ⟨_, _⟩, _, _, _⟩ : TransactionOutcome A N (Except Error CallInfo)) = _
    rw [hcallee, hframe]
  obtain ⟨f', hx⟩ := runSubTransaction_cases p origin target.address (f.isStatic || isStatic)
    false (messageCall p (Handler.callee code (exec p callee origin true) target) none) f w
  rw [hbody] at hx
  unfold Handler.call
  rw [Option.isSome_none, Bool.and_false, if_neg Bool.false_ne_true]
  obtain ⟨hreason, hx⟩ | ⟨hreason, w', hsettle, hx⟩ | ⟨-, e, hsettle, hx⟩ := hx
  · simp only [hx]
    rw [if_neg (of_decide_eq_false hreason)]
  · simp only [hx]
    rw [if_pos (of_decide_eq_true hreason)]
    rw [settle_fresh rfl] at hsettle
    cases hsettle
    rfl
  · rw [settle_fresh rfl] at hsettle
    cases hsettle

/-- A frame that calls goes on as it was. -/
theorem call_resumes (code pallet : Interpreter A N) (target : CallTarget)
    (transfer : Option Transfer) :
    Frame.Resumes f (Handler.call p origin code pallet target transfer isStatic f w).2.1 := by
  unfold Handler.call
  split
  · exact .rfl
  · exact runSubTransaction_resumes _

omit [DecidableEq A] in
/-- A precompile that does not write changes nothing. -/
theorem precompile_unchanged {request : Request} {pallet : Interpreter A N}
    (h : ∀ action, request = .perform action → action.writes = false) :
    Unchanged f w (precompile request pallet f w) := by
  cases request with
  | compute => exact ⟨.rfl, rfl⟩
  | refused => exact ⟨.rfl, rfl⟩
  | perform action =>
      rw [precompile, if_neg (by rw [h action rfl]; exact Bool.false_ne_true)]
      exact ⟨.rfl, rfl⟩

/-- So a call that leaves the world as it was did no harm. -/
theorem harmless_of_keeps {target : CallTarget} {callee : Script A N} {code : Interpreter A N}
    {action : PrecompileAction} {w₁ : World A N}
    (hrequest : AllPrecompiles.request target.codeAddress target.input target.caller
      = some (.perform action)) (hwrites : action.writes = true) (hsent : w.sent p none = .ok w₁)
    (hkeeps : (Handler.call p origin code (exec p callee origin true) target none isStatic f w).2.2
      = w) :
    let child : Frame A :=
      ⟨f.meter.childMeter target.address, f.isStatic || isStatic, false, w.toChain⟩
    (exec p callee origin true child w₁).reason = .succeed →
      (exec p callee origin true child w₁).world = w := by
  intro child hreason
  cases hsent
  rw [perform_world hrequest hwrites, if_pos hreason] at hkeeps
  exact hkeeps

/-- The writing precompiles among the static frames do no harm. -/
def Quiet (visits : List (Visit A N)) : Prop :=
  ∀ v ∈ visits, v.isStatic = true → v.performs = true → v.Harmless

/-- A static call whose code, or whose precompile, changes nothing leaves the world as it was. -/
theorem staticCall_keeps {target : CallTarget} {callee : Script A N}
    (hstatic : (f.isStatic || isStatic) = true)
    (ih : ∀ {f : Frame A} {w : World A N}, f.isStatic = true →
      Quiet (visits p callee origin false f w) →
      Unchanged f w (exec p callee origin false f w)) :
    let r := Handler.call p origin (exec p callee origin false) (exec p callee origin true)
      target none isStatic f w
    let request := AllPrecompiles.request target.codeAddress target.input target.caller
    let child : Frame A :=
      ⟨f.meter.childMeter target.address, f.isStatic || isStatic, false, w.toChain⟩
    let visit (w₁ : World A N) : Visit A N :=
      ⟨f.isStatic || isStatic, request, exec p callee origin true child w₁, w, r.2.2⟩
    Quiet (callVisits visit (fun native w₁ => visits p callee origin native child w₁) (.ok w)) →
      r.2.2 = w := by
  intro r request child visit hquiet
  cases hrequest : request with
  | none =>
      have hvisits : callVisits visit (fun native w₁ => visits p callee origin native child w₁)
          (.ok w) = visit w :: visits p callee origin false child w := by
        simp only [callVisits, visit, hrequest]
      rw [hvisits] at hquiet
      refine call_unchanged ?_
      rw [Handler.callee]
      dsimp only [request] at hrequest
      rw [hrequest]
      exact ih hstatic fun v hv => hquiet v (List.mem_cons_of_mem _ hv)
  | some asked =>
      cases hperforms : (visit w).performs with
      | true =>
          have hvisits : callVisits visit (fun native w₁ => visits p callee origin native child w₁)
              (.ok w) = visit w :: visits p callee origin true child w := by
            simp only [callVisits, visit, hrequest]
            exact if_pos (hrequest ▸ hperforms)
          rw [hvisits] at hquiet
          have hharmless := hquiet (visit w) List.mem_cons_self hstatic hperforms
          obtain ⟨action, haction, hwrites⟩ := Visit.performs_action hperforms
          have hworld : r.2.2 = if _ then _ else _ := perform_world haction hwrites
          rw [hworld]
          split
          · rename_i hreason
            exact hharmless hreason
          · rfl
      | false =>
          refine call_unchanged ?_
          rw [Handler.callee]
          dsimp only [request, visit] at hrequest hperforms
          rw [hrequest] at hperforms ⊢
          refine precompile_unchanged fun action haction => ?_
          rw [haction] at hperforms
          exact hperforms

/-- **In a static frame, a contract's code changes nothing by itself**: the world can only change
by a precompile that it, or a contract it calls, has run an action that writes. -/
theorem exec_static (script : Script A N) :
    ∀ {f : Frame A} {w : World A N}, f.isStatic = true →
      Quiet (visits p script origin false f w) →
      Unchanged f w (exec p script origin false f w) := by
  induction script with
  | exit reason output => exact fun _ _ => ⟨.rfl, rfl⟩
  | setStorage index value next ih =>
      intro f w hstatic _
      have hfails : setStorage f index value w.toChain = none := by
        rw [setStorage, if_pos hstatic]
      rw [exec, hfails]
      exact .failed
  | markDelete target =>
      intro f w hstatic _
      rw [exec, Handler.markDelete, if_pos hstatic]
      exact .failed
  | create salt value init next ihInit ihNext =>
      intro f w hstatic hquiet
      have hskipped : Handler.create p origin (exec p init origin false) salt value f w
          = ((.error, none, []), f, w) := by
        rw [Handler.create, if_pos hstatic]
      simp only [visits, hskipped] at hquiet
      rw [exec, hskipped]
      exact ihNext hstatic fun v hv => hquiet v (List.mem_append_right _ hv)
  | call target scheme callee next ihCallee ihNext =>
      intro f w hstatic hquiet
      have hresumes : Frame.Resumes f (Handler.call p origin (exec p callee origin false)
          (exec p callee origin true) target scheme.transfer scheme.isStatic f w).2.1 :=
        call_resumes ..
      have hworld : (Handler.call p origin (exec p callee origin false)
          (exec p callee origin true) target scheme.transfer scheme.isStatic f w).2.2 = w := by
        cases htransfer : scheme.transfer with
        | some t =>
            rw [Handler.call, hstatic]
            rfl
        | none =>
            refine staticCall_keeps (by rw [hstatic]; rfl) ihCallee fun v hv => hquiet v ?_
            simp only [visits, htransfer, World.sent, Option.isSome_none, Bool.and_false]
            exact List.mem_append_left _ hv
      rw [exec]
      obtain ⟨hresumes', hworld'⟩ := ihNext (hresumes.isStatic.trans hstatic) fun v hv =>
        hquiet v (List.mem_append_right _ hv)
      exact ⟨hresumes.trans hresumes', hworld'.trans hworld⟩
  | pallets change next ih => exact fun _ _ => .failed
  | transferMaintainer who contract newMaintainer next ih => exact fun _ _ => .failed
  | execute context value storageLimit mode callee next ihCallee ihNext =>
      exact fun _ _ => .failed

/-- Among these frames, the static ones leave the world as it was exactly if the writing
precompiles among them do no harm. -/
def QuietKeep (visits : List (Visit A N)) : Prop :=
  (Quiet visits → ∀ v ∈ visits, v.isStatic = true → v.Keeps) ∧
    ∀ v ∈ visits, v.isStatic = true → v.performs = true → v.Keeps → v.Harmless

section QuietKeep

omit [DecidableEq A]

theorem QuietKeep.nil : QuietKeep ([] : List (Visit A N)) :=
  ⟨fun _ _ hv => absurd hv List.not_mem_nil, fun _ hv => absurd hv List.not_mem_nil⟩

theorem QuietKeep.append {l l' : List (Visit A N)} (h : QuietKeep l) (h' : QuietKeep l') :
    QuietKeep (l ++ l') := by
  refine ⟨fun hquiet => ?_, List.forall_mem_append.mpr ⟨h.2, h'.2⟩⟩
  obtain ⟨hl, hl'⟩ := List.forall_mem_append.mp hquiet
  exact List.forall_mem_append.mpr ⟨h.1 hl, h'.1 hl'⟩

theorem QuietKeep.cons {v : Visit A N} {l : List (Visit A N)}
    (hv : Quiet (v :: l) → v.isStatic = true → v.Keeps)
    (hv' : v.isStatic = true → v.performs = true → v.Keeps → v.Harmless) (h : QuietKeep l) :
    QuietKeep (v :: l) := by
  refine ⟨fun hquiet => ?_, List.forall_mem_cons.mpr ⟨hv', h.2⟩⟩
  exact List.forall_mem_cons.mpr ⟨hv hquiet, h.1 (List.forall_mem_cons.mp hquiet).2⟩

theorem QuietKeep.callVisits {visit : World A N → Visit A N}
    {below : Bool → World A N → List (Visit A N)} (sent : Except Error (World A N))
    (hvisit : ∀ w, sent = .ok w → Quiet (callVisits visit below sent) →
      (visit w).isStatic = true → (visit w).Keeps)
    (hvisit' : ∀ w, sent = .ok w → (visit w).isStatic = true → (visit w).performs = true →
      (visit w).Keeps → (visit w).Harmless)
    (hbelow : ∀ native w, QuietKeep (below native w)) :
    QuietKeep (callVisits visit below sent) := by
  cases sent with
  | error e => exact .nil
  | ok w =>
      have hkeeps := hvisit w rfl
      have hharmless := hvisit' w rfl
      revert hkeeps
      unfold Evm.callVisits
      dsimp only
      split
      · exact fun hkeeps => .cons hkeeps hharmless (hbelow false w)
      · split
        · exact fun hkeeps => .cons hkeeps hharmless (hbelow true w)
        · exact fun hkeeps => .cons hkeeps hharmless .nil

end QuietKeep

/-- The frame of a call, and those below it. -/
theorem quietKeep_call {target : CallTarget} {scheme : CallScheme} {callee : Script A N}
    (ih : ∀ native f w, QuietKeep (visits p callee origin native f w)) :
    let r := Handler.call p origin (exec p callee origin false) (exec p callee origin true)
      target scheme.transfer scheme.isStatic f w
    let request := AllPrecompiles.request target.codeAddress target.input target.caller
    let child : Frame A :=
      ⟨f.meter.childMeter target.address, f.isStatic || scheme.isStatic, false, w.toChain⟩
    let visit (w₁ : World A N) : Visit A N :=
      ⟨f.isStatic || scheme.isStatic, request, exec p callee origin true child w₁, w, r.2.2⟩
    (f.isStatic && scheme.transfer.isSome) = false →
    QuietKeep (callVisits visit (fun native w₁ => visits p callee origin native child w₁)
      (w.sent p scheme.transfer)) := by
  intro r request child visit hallowed
  -- A frame that sends a value is static only below a static one, where it is not allowed to.
  have hsends : ∀ t, scheme = .send t → (f.isStatic || scheme.isStatic) = true → False := by
    rintro t rfl hstatic
    have hf : f.isStatic = true := by
      rw [← hstatic]
      exact (Bool.or_false _).symm
    rw [hf] at hallowed
    cases hallowed
  refine .callVisits _ (fun w₁ _ hquiet hstatic => ?_) (fun w₁ hsent hstatic hperforms hkeeps => ?_)
    fun native w₁ => ih native child w₁
  · cases scheme with
    | send t => exact (hsends t rfl hstatic).elim
    | delegateCall => exact staticCall_keeps hstatic (exec_static callee) hquiet
    | staticCall => exact staticCall_keeps hstatic (exec_static callee) hquiet
  · obtain ⟨action, haction, hwrites⟩ := Visit.performs_action hperforms
    cases scheme with
    | send t => exact (hsends t rfl hstatic).elim
    | delegateCall => exact harmless_of_keeps haction hwrites hsent hkeeps
    | staticCall => exact harmless_of_keeps haction hwrites hsent hkeeps

/-- **In every run of a code**, the static frames keep the world exactly if the writing precompiles
among them do no harm. -/
theorem quietKeep_visits (script : Script A N) (origin : EvmAddress) (native : Bool) (f : Frame A)
    (w : World A N) : QuietKeep (visits p script origin native f w) := by
  induction script generalizing origin native f w with
  | exit reason output => exact .nil
  | setStorage index value next ih =>
      cases native with
      | true => exact .nil
      | false =>
          rw [visits]
          split
          · exact ih _ _ _ _
          · exact .nil
  | markDelete target => cases native <;> exact .nil
  | create salt value init next ihInit ihNext =>
      cases native with
      | true => exact .nil
      | false =>
          rw [visits]
          refine QuietKeep.append ?_ (ihNext _ _ _ _)
          split
          · exact .nil
          split
          · exact .nil
          split
          · exact ihInit _ _ _ _
          · exact .nil
  | call target scheme callee next ihCallee ihNext =>
      cases native with
      | true => exact .nil
      | false =>
          rw [visits]
          refine QuietKeep.append ?_ (ihNext _ _ _ _)
          split
          · exact .nil
          · rename_i hallowed
            exact quietKeep_call (ihCallee _) (Bool.eq_false_of_not_eq_true hallowed)
  | pallets change next ih =>
      cases native with
      | false => exact .nil
      | true =>
          rw [visits]
          split
          · exact ih _ _ _ _
          · exact .nil
  | transferMaintainer who contract newMaintainer next ih =>
      cases native with
      | false => exact .nil
      | true =>
          rw [visits]
          split
          · exact ih _ _ _ _
          · exact .nil
  | execute context value storageLimit mode callee next ihCallee ihNext =>
      cases native with
      | false => exact .nil
      | true =>
          rw [visits]
          refine QuietKeep.append ?_ (ihNext _ _ _ _)
          split
          · split
            · split
              · exact ihCallee _ _ _ _
              · exact .nil
            · exact .nil
          · exact .nil

variable (p) in
/-- **Every static frame leaves the world as it was exactly if no action of a precompile that is
called in one writes with effect**: the calls of pallets that it makes there fail or change
nothing, or there are none. -/
theorem static_keep_iff (script : Script A N) (origin : EvmAddress) (native : Bool) (f : Frame A)
    (w : World A N) :
    (∀ v ∈ visits p script origin native f w, v.isStatic = true → v.Keeps) ↔
      ∀ v ∈ visits p script origin native f w, v.isStatic = true → v.performs = true →
        v.Harmless := by
  obtain ⟨hkeep, hharmless⟩ : QuietKeep (visits p script origin native f w) :=
    quietKeep_visits script origin native f w
  exact ⟨fun h v hv hstatic hperforms => hharmless v hv hstatic hperforms (h v hv hstatic), hkeep⟩

/-! ## A transfer in a static frame -/

section Sample

/-- The mirrored contract of the native token. -/
def sampleToken : EvmAddress := 0x0000000000000000000000000000000001000000

/-- `transfer` of 5 units from the sample's account to account 2, as it is encoded. -/
def sampleTransferInput : Code :=
  List.replicate 32 0 ++ [0xbe, 0xab, 0xac, 0xc8] ++ bigEndian 32 sampleSource.toNat
    ++ bigEndian 32 2 ++ bigEndian 32 5

/-- The token's contract, in a frame that calls it, calls the multicurrency precompile with
`STATICCALL`, which transfers. -/
def staticTransfer : Script EvmAddress Unit :=
  .call ⟨0x400, sampleTransferInput, sampleToken, 0x400⟩ .staticCall
    (.pallets
      (fun r n => (r.transfer Reserves.Rules.permissive sampleSource 2 5).toOption.map (·, n))
      (.exit .succeed []))
    (.exit .succeed [])

/-- A static frame that moves balances: the multicurrency precompile is called in it, by a system
contract, and transfers. -/
theorem static_frame_transfers :
    let f : Frame EvmAddress := ⟨.new sampleToken 0, false, false, sampleWorld.toChain⟩
    (∃ v ∈ visits sampleParams staticTransfer sampleSource false f sampleWorld,
      v.isStatic = true ∧ v.request = some (.perform (.multiCurrency .Transfer)) ∧
        v.before.currency.free 2 = 0 ∧ v.after.currency.free 2 = 5) ∧
      ¬ ∀ v ∈ visits sampleParams staticTransfer sampleSource false f sampleWorld,
        v.isStatic = true → v.Keeps := by
  intro f
  have hmoved : ∃ v ∈ visits sampleParams staticTransfer sampleSource false f sampleWorld,
      v.isStatic = true ∧ v.request = some (.perform (.multiCurrency .Transfer)) ∧
        v.before.currency.free 2 = 0 ∧ v.after.currency.free 2 = 5 := by
    decide +kernel
  refine ⟨hmoved, fun h => ?_⟩
  obtain ⟨v, hv, hstatic, -, hbefore, hafter⟩ := hmoved
  have hkeeps : v.after = v.before := h v hv hstatic
  rw [hkeeps, hbefore] at hafter
  cases hafter

end Sample

end Setheum.Evm
