import PegMatcher.Proofs.FaultOrigin

/-!
# Rules refused for their depth

Only a rule can be refused for its depth. So a run that ends with such a refusal has, somewhere within
it, the rule that was refused, and the fault names that rule and the bound. On its way out the refusal
passes through operators that restore nothing; it is the rules around that give the position back.
-/

namespace PegMatcher

set_option autoImplicit false

variable {env : Environment} {ctx : Setting}

namespace Expr

variable {e e' : Expr} {es : List Expr} {s s' t t' : State} {f : Fault} {d : Nat}

/-- A defined rule that may not run at a state, because as many rules as may are running there. -/
structure Refused (env : Environment) (ctx : Setting) (id : RuleId) (t : State) : Prop where
  defined : (env id).body ≠ none
  full : ctx.maxDepth ≤ t.depth

theorem Refused.parser_eq {id : RuleId} (h : Refused env ctx id t) :
    (rule id).parser env ctx t = .raised (.depthExceeded ctx.maxDepth (env id).name) t := by
  obtain ⟨body, hbody⟩ := Option.ne_none_iff_exists'.mp h.defined
  simp only [parser_rule, Rule.parser, hbody, Parser.nested, h.full, if_true]

/-- The fault is the refusal of a rule that runs within the expression. -/
def RefusesWithin (env : Environment) (ctx : Setting) (e : Expr) (s : State) (f : Fault) : Prop :=
  ∃ k id t, e.Within env ctx k s (.rule id) t ∧ Refused env ctx id t ∧
    f = .depthExceeded ctx.maxDepth (env id).name

theorem RefusesWithin.of_start (hstart : Starts env ctx e s e' t)
    (h : RefusesWithin env ctx e' t f) : RefusesWithin env ctx e s f := by
  obtain ⟨k, id, u, hwithin, hrefused⟩ := h
  exact ⟨k, id, u, .part hstart hwithin, hrefused⟩

theorem RefusesWithin.of_starts (h : RefusesWithin env ctx e' t f) (hrule : ∀ id, e' ≠ .rule id)
    (hstarts : ∀ e'' u, Starts env ctx e' t e'' u → Starts env ctx e s e'' u) :
    RefusesWithin env ctx e s f := by
  obtain ⟨k, id, u, hwithin, hrefused⟩ := h
  exact ⟨k, id, u, hwithin.of_starts (hrule id) hrule hstarts, hrefused⟩

/-- Wherever `d` rules are running, a refusal that ends the expression is that of a rule within it. -/
def Blames (env : Environment) (ctx : Setting) (d : Nat) (e : Expr) : Prop :=
  ∀ s f s', s.depth = d → e.parser env ctx s = .raised f s' → f.isDepthExceeded = true →
    RefusesWithin env ctx e s f

theorem Blames.part (h : Blames env ctx d e') (hs : s.depth = d) (hstart : Starts env ctx e s e' t)
    (hr : e'.parser env ctx t = .raised f t') (hf : f.isDepthExceeded = true) :
    RefusesWithin env ctx e s f :=
  .of_start hstart (h t f t' (hstart.depth_eq.trans hs) hr hf)

theorem Blames.unary (h : Blames env ctx d e) (hstart : ∀ s, Starts env ctx e' s e s)
    (hanswers : ∀ s v t, e.parser env ctx s = .returned v t →
      ∃ w u, e'.parser env ctx s = .returned w u) : Blames env ctx d e' := by
  intro s f s' hs hr hf
  cases hpart : e.parser env ctx s with
  | returned v t =>
    obtain ⟨w, u, hw⟩ := hanswers s v t hpart
    cases hw.symm.trans hr
  | raised g t =>
    obtain ⟨u, hu⟩ := (hstart s).raised hpart
    cases hu.symm.trans hr
    exact h.part hs (hstart s) hpart hf

theorem blames_primitive (m : Primitive) : Blames env ctx d (.primitive m) := by
  intro s f s' _ hr hf
  simp only [parser, run, Parser.ofPrimitive] at hr
  split at hr
  · cases hr
  · cases hr
  · rename_i g hscan
    cases hr
    rw [Fault.not_isDepthExceeded (Primitive.scan_not_reserved hscan)] at hf
    cases hf

theorem blames_seq (h : ∀ e ∈ es, Blames env ctx d e) : Blames env ctx d (.seq es) := by
  intro s f s' hs hr hf
  obtain ⟨e, he, t, hstart, hpart⟩ := exists_part_seq s s' hr
  exact (h e he).part hs hstart hpart hf

theorem blames_choice (h : ∀ e ∈ es, Blames env ctx d e) : Blames env ctx d (.choice es) := by
  intro s f s' hs hr hf
  obtain ⟨e, he, t, t', hstart, hpart⟩ := exists_part_choice s s' hr
  exact (h e he).part hs hstart hpart hf

theorem blames_star (h : Blames env ctx d e) : Blames env ctx d (.star e) := by
  intro s f s' hs hr hf
  have hends : f ≠ .diverged := by
    rintro rfl
    cases hf
  obtain ⟨t, t', hstart, hpart⟩ := exists_round hr hends
  exact h.part hs hstart hpart hf

theorem blames_plus (h : Blames env ctx d e) : Blames env ctx d (.plus e) := by
  intro s f s' hs hr hf
  simp only [parser_plus, Parser.plus] at hr
  cases hfirst : e.parser env ctx s with
  | raised g t =>
    rw [hfirst] at hr
    cases hr
    exact h.part hs .plusHead hfirst hf
  | returned v t =>
    simp only [hfirst] at hr
    split at hr
    · rename_i hv
      split at hr
      · cases hr
      · rename_i hne
        split at hr
        · cases hr
        · rename_i g u hrest
          cases hr
          rw [← parser_star] at hrest
          exact (blames_star h).part hs (.plusNext hfirst hv hne) hrest hf
    · cases hr

theorem blames_opt (h : Blames env ctx d e) : Blames env ctx d (.opt e) :=
  h.unary (fun _ => .opt) fun s v t hr => by
    simp only [parser_opt, Parser.opt, hr]
    exact ⟨_, _, rfl⟩

theorem blames_ahead (h : Blames env ctx d e) : Blames env ctx d (.ahead e) :=
  h.unary (fun _ => .ahead) fun s v t hr => by
    simp only [parser_ahead, Parser.ahead, hr]
    exact ⟨_, _, rfl⟩

theorem blames_notAhead (h : Blames env ctx d e) : Blames env ctx d (.notAhead e) :=
  h.unary (fun _ => .notAhead) fun s v t hr => by
    simp only [parser_notAhead, Parser.notAhead, hr]
    exact ⟨_, _, rfl⟩

theorem blames_expect {tracker label : String} (h : Blames env ctx d e) :
    Blames env ctx d (.expect tracker label e) :=
  h.unary (fun _ => .expect) fun s v t hr => by
    simp only [parser_expect, Parser.expect, hr]
    cases hv : v.truthy with
    | true => exact ⟨_, _, rfl⟩
    | false => exact ⟨_, _, rfl⟩

theorem blames_traced {tag : Value} (h : Blames env ctx d e) : Blames env ctx d (.traced tag e) :=
  h.unary (fun _ => .traced) fun s v t hr => by
    simp only [parser_traced, Parser.traced, hr]
    exact ⟨_, _, rfl⟩

/-- Under any checkpoints, a refusal that ends the actions is that of a rule within what they run. -/
def BlamesActions (env : Environment) (ctx : Setting) (d : Nat) (as : List (Action Expr)) : Prop :=
  ∀ outer frame s f s', s.depth = d →
    Block.perform outer frame (runActions (invoke env (ctx.maxDepth - d)) as) ctx s = .raised f s' →
    f.isDepthExceeded = true →
    ∃ e t, Block.Reaches env ctx outer frame as s e t ∧ RefusesWithin env ctx e t f

def BlamesAction (env : Environment) (ctx : Setting) (d : Nat) (a : Action Expr) : Prop :=
  ∀ outer frame as s f s', s.depth = d →
    Block.act outer frame (runAction (invoke env (ctx.maxDepth - d)) a) ctx s = .raised f s' →
    f.isDepthExceeded = true →
    ∃ e t, Block.Reaches env ctx outer frame (a :: as) s e t ∧ RefusesWithin env ctx e t f

theorem blames_need (h : Blames env ctx d e) : BlamesAction env ctx d (.need e) := by
  intro outer frame as s f s' hs hr hf
  subst hs
  simp only [runAction, Block.act] at hr
  split at hr
  · split at hr <;> cases hr
  · rename_i g t hpart
    cases hr
    exact ⟨e, s, .need, h s f s' rfl hpart hf⟩

theorem blames_attempt (h : Blames env ctx d e) : BlamesAction env ctx d (.attempt e) := by
  intro outer frame as s f s' hs hr hf
  subst hs
  simp only [runAction, Block.act] at hr
  split at hr
  · cases hr
  · rename_i g t hpart
    cases hr
    exact ⟨e, s, .attempt, h s f s' rfl hpart hf⟩

theorem blames_sub {body : List (Action Expr)} (h : BlamesActions env ctx d body) :
    BlamesAction env ctx d (.sub body) := by
  intro outer frame as s f s' hs hr hf
  simp only [runAction, Block.act] at hr
  cases hbody : Block.perform (frame :: outer) (.openAt s)
      (runActions (invoke env (ctx.maxDepth - d)) body) ctx s with
  | done _ _ =>
    simp only [hbody, Flow.leave] at hr
    cases hr
  | left _ _ _ =>
    simp only [hbody, Flow.leave] at hr
    cases hr
  | raised g t =>
    simp only [hbody, Flow.leave] at hr
    cases hr
    obtain ⟨e, u, hreach, hwithin⟩ := h _ _ s f t hs hbody hf
    exact ⟨e, u, .sub hreach, hwithin⟩

theorem blames_actions_nil : BlamesActions env ctx d [] := by
  intro outer frame s f s' _ hr
  simp only [runActions, Block.perform] at hr
  cases hr

theorem blames_actions_cons {a : Action Expr} {as : List (Action Expr)}
    (ha : BlamesAction env ctx d a) (has : BlamesActions env ctx d as) :
    BlamesActions env ctx d (a :: as) := by
  intro outer frame s f s' hs hr hf
  simp only [runActions, Block.perform] at hr
  cases hact : Block.act outer frame (runAction (invoke env (ctx.maxDepth - d)) a) ctx s with
  | done frame' t =>
    simp only [hact] at hr
    have ht := (Block.act_depth hact).trans hs
    obtain ⟨e, u, hreach, hwithin⟩ := has outer frame' t f s' ht hr hf
    subst hs
    exact ⟨e, u, .next hact hreach, hwithin⟩
  | left _ _ _ =>
    simp only [hact] at hr
    cases hr
  | raised g t =>
    simp only [hact] at hr
    cases hr
    exact ha outer frame as s f s' hs hact hf

/-- An action that runs nothing is never refused. -/
theorem blames_idle {a : Action Expr} (hneed : ∀ e, a ≠ .need e) (hattempt : ∀ e, a ≠ .attempt e)
    (hsub : ∀ body, a ≠ .sub body) : BlamesAction env ctx d a := by
  intro outer frame as s f s' _ hr hf
  cases a with
  | need e => exact absurd rfl (hneed e)
  | attempt e => exact absurd rfl (hattempt e)
  | sub body => exact absurd rfl (hsub body)
  | advance =>
    simp only [runAction, Block.act] at hr
    split at hr
    · cases hr
      cases hf
    · cases hr
  | raise text =>
    simp only [runAction, Block.act] at hr
    cases hr
    cases hf
  | _ =>
    simp only [runAction, Block.act] at hr
    cases hr

theorem blames_block {actions : List (Action Expr)} (h : BlamesActions env ctx d actions) :
    Blames env ctx d (.block actions) := by
  intro s f s' hs hr hf
  subst hs
  simp only [parser, run, Parser.block] at hr
  cases hbody : Block.perform [] (.openAt s) (runActions (invoke env (ctx.maxDepth - s.depth)) actions)
      ctx s with
  | done _ _ =>
    simp only [hbody, Flow.leave] at hr
    cases hr
  | left _ _ _ =>
    simp only [hbody, Flow.leave] at hr
    cases hr
  | raised g t =>
    simp only [hbody, Flow.leave] at hr
    cases hr
    obtain ⟨e, u, hreach, hwithin⟩ := h _ _ s f t rfl hbody hf
    exact .of_start (.block hreach) hwithin

theorem blames_look {next : Source → Int → Routine Expr}
    (h : ∀ src pos, Blames env ctx d (.routine (next src pos))) :
    Blames env ctx d (.routine (.look next)) := by
  intro s f s' hs hr hf
  rw [parser_look] at hr
  exact (h _ _ s f s' hs hr hf).of_starts nofun fun _ _ => .look

theorem blames_moveTo {pos : Int} {r : Routine Expr} (h : Blames env ctx d (.routine r)) :
    Blames env ctx d (.routine (.moveTo pos r)) := by
  intro s f s' hs hr hf
  rw [parser_moveTo] at hr
  exact (h (s.moveTo pos) f s' hs hr hf).of_starts nofun fun _ _ => .moveTo

theorem blames_run {next : Bool → Routine Expr} (h : Blames env ctx d e)
    (hnext : ∀ matched, Blames env ctx d (.routine (next matched))) :
    Blames env ctx d (.routine (.run e next)) := by
  intro s f s' hs hr hf
  rw [parser_run] at hr
  cases hpart : e.parser env ctx s with
  | raised g t =>
    rw [hpart] at hr
    cases hr
    exact h.part hs .runHead hpart hf
  | returned v t =>
    rw [hpart] at hr
    have hrest := hnext v.truthy t f s' ((returned_depth hpart).trans hs) hr hf
    exact hrest.of_starts nofun fun _ _ => .runNext hpart

mutual

theorem blames_expr (hrules : ∀ id, Blames env ctx d (.rule id)) : ∀ e : Expr, Blames env ctx d e
  | .primitive m => blames_primitive m
  | .seq parts => blames_seq (blames_parts hrules parts)
  | .choice options => blames_choice (blames_parts hrules options)
  | .star body => blames_star (blames_expr hrules body)
  | .plus body => blames_plus (blames_expr hrules body)
  | .opt body => blames_opt (blames_expr hrules body)
  | .ahead body => blames_ahead (blames_expr hrules body)
  | .notAhead body => blames_notAhead (blames_expr hrules body)
  | .rule id => hrules id
  | .expect _ _ body => blames_expect (blames_expr hrules body)
  | .traced _ body => blames_traced (blames_expr hrules body)
  | .block actions => blames_block (blames_actions hrules actions)
  | .routine r => blames_routine hrules r

theorem blames_parts (hrules : ∀ id, Blames env ctx d (.rule id)) : ∀ es : List Expr,
    ∀ e ∈ es, Blames env ctx d e
  | [] => nofun
  | e :: es => List.forall_mem_cons.mpr ⟨blames_expr hrules e, blames_parts hrules es⟩

theorem blames_actions (hrules : ∀ id, Blames env ctx d (.rule id)) :
    ∀ as : List (Action Expr), BlamesActions env ctx d as
  | [] => blames_actions_nil
  | a :: as => blames_actions_cons (blames_action hrules a) (blames_actions hrules as)

theorem blames_action (hrules : ∀ id, Blames env ctx d (.rule id)) :
    ∀ a : Action Expr, BlamesAction env ctx d a
  | .need e => blames_need (blames_expr hrules e)
  | .attempt e => blames_attempt (blames_expr hrules e)
  | .sub body => blames_sub (blames_actions hrules body)
  | .advance => blames_idle nofun nofun nofun
  | .commit => blames_idle nofun nofun nofun
  | .uncommit => blames_idle nofun nofun nofun
  | .rollback => blames_idle nofun nofun nofun
  | .rollbackUncommitted => blames_idle nofun nofun nofun
  | .raise _ => blames_idle nofun nofun nofun
  | .succeed => blames_idle nofun nofun nofun
  | .fail => blames_idle nofun nofun nofun
  | .give _ => blames_idle nofun nofun nofun

theorem blames_routine (hrules : ∀ id, Blames env ctx d (.rule id)) :
    ∀ r : Routine Expr, Blames env ctx d (.routine r)
  | .answer _ => fun _ _ _ _ hr => by cases hr
  | .raise _ own => fun _ _ _ _ hr hf => by
    cases hr
    exact absurd hf (by rw [Fault.not_isDepthExceeded own]; nofun)
  | .look next => blames_look fun src pos => blames_routine hrules (next src pos)
  | .moveTo _ next => blames_moveTo (blames_routine hrules next)
  | .run e next => blames_run (blames_expr hrules e) fun matched => blames_routine hrules (next matched)

end

/-- The bodies of rules run deeper, and there are only so many levels. -/
theorem blames_rule : ∀ d id, Blames env ctx d (.rule id) := by
  intro d
  induction hn : ctx.maxDepth - d using Nat.strongRecOn generalizing d with
  | ind n ih =>
    intro id s f s' hs hr hf
    rw [parser_rule, Rule.parser] at hr
    cases hbody : (env id).body with
    | none =>
      simp only [hbody, Parser.fault] at hr
      cases hr
      cases hf
    | some body =>
      simp only [hbody, Parser.nested] at hr
      split at hr
      · rename_i hfull
        cases hr
        exact ⟨0, id, s, .self, ⟨by simp [hbody], hfull⟩, rfl⟩
      · rename_i hfree
        split at hr
        · cases hr
        · rename_i g t hrun
          cases hr
          have hdeeper := blames_expr (ih _ (by omega) (d + 1) rfl) body
          obtain ⟨k, id', u, hwithin, hrefused⟩ :=
            hdeeper { s with depth := s.depth + 1 } f t (by simp only [hs]) hrun hf
          exact ⟨k + 1, id', u, .body hbody (by omega) hwithin, hrefused⟩

end Expr

/-- A body may do anything, but where its rule ends in a refusal the position is what it was before. -/
theorem Parser.pos_of_nested {name : Option String} {body : Parser} {s s' : State} {f : Fault}
    (hr : Parser.nested name body ctx s = .raised f s') (hf : f.isDepthExceeded = true) :
    s'.pos = s.pos := by
  simp only [Parser.nested] at hr
  split at hr
  · cases hr
    rfl
  · split at hr
    · cases hr
    · cases hr
      simp only [hf, if_true]

theorem Expr.pos_of_rule {id : RuleId} {s s' : State} {f : Fault}
    (hr : (Expr.rule id).parser env ctx s = .raised f s') (hf : f.isDepthExceeded = true) :
    s'.pos = s.pos := by
  rw [parser_rule, Rule.parser] at hr
  cases hbody : (env id).body with
  | none =>
    simp only [hbody, Parser.fault] at hr
    cases hr
    cases hf
  | some body =>
    simp only [hbody] at hr
    exact Parser.pos_of_nested hr hf

/-- A rule that ends in a refusal leaves the cursor where it was, and the fault names a rule within it at which
as many rules as may were running. -/
theorem refusal_restores (env : Environment) (ctx : Setting) (id : RuleId) (s : State) :
    (∀ f s', (Expr.rule id).parser env ctx s = .raised f s' → f.isDepthExceeded = true →
      s'.pos = s.pos ∧
      ∃ k id' t, (Expr.rule id).Within env ctx k s (.rule id') t ∧ Expr.Refused env ctx id' t ∧
        t.depth = s.depth + k ∧ (s.depth ≤ ctx.maxDepth → t.depth = ctx.maxDepth) ∧
        f = .depthExceeded ctx.maxDepth (env id').name) ∧
    (∀ k id' t, (Expr.rule id).Within env ctx k s (.rule id') t → Expr.Refused env ctx id' t →
      ∃ s', (Expr.rule id).parser env ctx s =
        .raised (.depthExceeded ctx.maxDepth (env id').name) s' ∧ s'.pos = s.pos) ∧
    (∀ name (body : Parser) f s', Parser.nested name body ctx s = .raised f s' →
      f.isDepthExceeded = true → s'.pos = s.pos) := by
  refine ⟨fun f s' hr hf => ?_, fun k id' t hwithin hrefused => ?_, fun _ _ _ _ => Parser.pos_of_nested⟩
  · obtain ⟨k, id', t, hwithin, hrefused, rfl⟩ := Expr.blames_rule s.depth id s f s' rfl hr hf
    obtain ⟨hdepth, hbound⟩ := hwithin.depth_eq
    have hfull := hrefused.full
    refine ⟨Expr.pos_of_rule hr hf, k, id', t, hwithin, hrefused, hdepth, fun hle => ?_, rfl⟩
    rcases Nat.eq_zero_or_pos k with rfl | hpos
    · omega
    · have hmax := hbound hpos
      omega
  · obtain ⟨s', hr⟩ := hwithin.raised hrefused.parser_eq
    exact ⟨s', hr, Expr.pos_of_rule hr rfl⟩

def wordRules : Environment
  | .loose 0 => ⟨some "word", some (.block [.advance, .commit, .sub [.need (.rule (.loose 1))]])⟩
  | .loose 1 => ⟨some "part", some (.plus (.seq [.primitive .any,
      .ahead (.seq [.primitive .any, .rule (.loose 2)])]))⟩
  | _ => ⟨some "number", some (.primitive .any)⟩

/-- Two rules may run, and the number would be the third. -/
theorem refusal_restores_word :
    let word : Expr := .rule (.loose 0)
    let ctx : Setting := ⟨.text #['a', 'b', 'c', 'd', 'e'], 2⟩
    let s : State := ⟨1, 0, [], #[]⟩
    let t : State := ⟨4, 2, [], #[]⟩
    (word.Within wordRules ctx 2 s (.rule (.loose 2)) t ∧ Expr.Refused wordRules ctx (.loose 2) t ∧
      ∃ s', word.parser wordRules ctx s = .raised (.depthExceeded 2 (some "number")) s' ∧
        s'.pos = 1) ∧
    (∀ s', word.parser wordRules ctx s = .raised (.depthExceeded 2 (some "number")) s' →
      s'.pos = 1) := by
  intro word ctx s t
  have hpart : Expr.Within wordRules ctx 1 (.rule (.loose 1)) ⟨2, 1, [], #[]⟩ (.rule (.loose 2)) t := by
    refine .body rfl (by decide) (.part .plusHead (.part (.seqNext rfl rfl .seqHead) ?_))
    exact .part .ahead (.part (.seqNext rfl rfl .seqHead) .self)
  have hword : word.Within wordRules ctx 2 s (.rule (.loose 2)) t := by
    refine .body rfl (by decide) (.part (.block (.next rfl (.next rfl ?_))) hpart)
    exact .sub .need
  have hrefused : Expr.Refused wordRules ctx (.loose 2) t := ⟨nofun, by decide⟩
  have h := refusal_restores wordRules ctx (.loose 0) s
  exact ⟨⟨hword, hrefused, h.2.1 2 _ t hword hrefused⟩, fun s' hr => (h.1 _ s' hr rfl).1⟩

end PegMatcher
