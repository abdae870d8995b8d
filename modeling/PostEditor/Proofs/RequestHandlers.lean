import PostEditor.Proofs.FieldHandlers

namespace PostEditor

namespace Dispatch

theorem mem_of_next? {d : Dispatch} {time : Nat} {w : Waiting} (h : d.next? time = some w) :
    w ∈ d.waiting := by
  have found : ∀ v, d.next? time = some v → v ∈ d.waiting := by
    refine List.foldlRecOn (motive := fun best => ∀ v, best = some v → v ∈ d.waiting) _ _ (by simp) ?_
    intro best hbest x hx v hv
    have hx : x ∈ d.waiting := (List.mem_filter.mp hx).1
    split at hv
    next =>
      obtain rfl := Option.some.inj hv
      exact hx
    next =>
      split at hv
      next =>
        obtain rfl := Option.some.inj hv
        exact hx
      next => exact hbest v hv
  exact found w h

theorem mem_sent_of_fire {d : Dispatch} {w : Waiting} {number : Nat} {s : Sent}
    (h : (d.fire w number).1 = some s) : s ∈ (d.fire w number).2.sent ∧ s.number = number := by
  unfold fire at h ⊢
  cases hc : d.completer.isCurrent w.request.ticket with
  | true =>
    simp only [hc, if_true] at h ⊢
    obtain rfl := Option.some.inj h
    exact ⟨List.mem_append_right _ (List.mem_singleton_self _), rfl⟩
  | false => simp [hc] at h

end Dispatch

namespace Page

theorem lookupAnswered_advances {s : Sent} {p : Page} (hs : s ∈ p.dispatch.sent)
    (answer : Except Failure (List Candidate)) : Advances p ((lookupAnswered s answer).run p).2 := by
  obtain ⟨index, hi⟩ := List.mem_iff_getElem?.mp hs
  have settled := settle_quiet ((p.dispatch.answered s answer).into (·.completer))
    { p with dispatch := (p.dispatch.answered s answer).state }
  obtain ⟨hx, hsettings, _, new, he, hn⟩ := settled
  refine .of_move (.fetchOver index answer) ?_ hsettings new he hn
  have moved : (p.exchange.move (.fetchOver index answer)).exchange =
      ⟨(p.dispatch.answered s answer).state, p.area⟩ := by
    have hi : p.exchange.dispatch.sent[index]? = some s := hi
    simp only [Exchange.move, hi]
    rfl
  rw [moved]
  exact hx

/-- A fetch that is owed is handed to the browser, or ends at once with what was thrown. -/
theorem sendLookup_advances {s : Sent} {p : Page} (hs : s ∈ p.dispatch.sent) (hn : s.number = p.fetched + 1) :
    AdvancesOwing [s] p ((sendLookup s).run p).2 := by
  unfold sendLookup
  rw [run_bind]
  split
  next => exact (lookupAnswered_advances hs _).owing [s]
  next =>
    let url := lookupAddress p.settings.lookupUrl s.request.query
    have reported := report_quiet [.lookingUp url] p
    have hd := congrArg Exchange.dispatch reported.exchange
    have hsent : s ∈ ((report [.lookingUp url]).run p).2.dispatch.sent := congrArg Dispatch.sent hd ▸ hs
    rw [run_bind]
    split
    next => exact (reported.advances.trans (lookupAnswered_advances hsent _)).owing [s]
    next =>
      obtain ⟨hx, hsettings, hfetched, new, he, hnew⟩ := reported
      refine ⟨hsettings, [], new ++ [.fetch (p.fetched + 1) (.lookup url)], hx, ?_, ?_⟩
      · change ((report [.lookingUp url]).run p).2.effects ++
          [.fetch (((report [.lookingUp url]).run p).2.fetched + 1) (.lookup url)] = _
        rw [he, hfetched, List.append_assoc]
      · have one : lookups (new ++ [.fetch (p.fetched + 1) (.lookup url)]) = [handed p.settings s] := by
          rw [lookups_append, hnew, handed, hn]
          rfl
        rw [one]
        exact List.Sublist.refl _

theorem fire_advances {w : Waiting} {p : Page} (hw : w ∈ p.dispatch.waiting) :
    Advances p ((fire w).run p).2 := by
  obtain ⟨index, hi⟩ := List.mem_iff_getElem?.mp hw
  have moved : p.exchange.move (.waitOver index (p.fetched + 1)) =
      ⟨⟨(p.dispatch.fire w (p.fetched + 1)).2, p.area⟩, [],
        (p.dispatch.fire w (p.fetched + 1)).1.toList⟩ := by
    have hi : p.exchange.dispatch.waiting[index]? = some w := hi
    simp only [Exchange.move, hi]
    rfl
  refine AdvancesOwing.after_move moved ?_
  unfold fire
  rw [run_bind, run_bind]
  split
  next s hs =>
    have hs : (p.dispatch.fire w (p.fetched + 1)).1 = some s := hs
    obtain ⟨hsent, hn⟩ := Dispatch.mem_sent_of_fire hs
    rw [hs]
    exact sendLookup_advances hsent hn
  next => exact (Advances.refl _).owing _

/-- Each timer that fires is the end of a wait. -/
theorem fireDue_advances (time count : Nat) (p : Page) : Advances p ((fireDue time count).run p).2 := by
  induction count generalizing p with
  | zero => exact .refl p
  | succ count ih =>
    unfold fireDue
    rw [run_bind]
    split
    next => exact .refl p
    next w hw =>
      have ticked : Advances p { p with clock := w.due } := .of_unseen rfl rfl rfl
      have hmem : w ∈ ({ p with clock := w.due } : Page).dispatch.waiting := Dispatch.mem_of_next? hw
      exact (ticked.trans (fire_advances hmem)).trans (ih _)

theorem advance_advances (span : Nat) (p : Page) : Advances p ((advance span).run p).2 := by
  have fired := fireDue_advances (p.clock + span) p.dispatch.waiting.length p
  exact fired.trans (.of_unseen rfl rfl rfl)

theorem finishUpload_advances (outcome : Except Failure UploadReply) (p : Page) :
    Advances p ((finishUpload outcome).run p).2 := by
  have ended : ∀ q : Page, Advances q { ((emit .resetUpload).run q).2 with uploading := false } :=
    fun q => .of_same rfl rfl [.resetUpload] rfl rfl
  unfold finishUpload
  split
  next reply =>
    have linked := settleField_advances (TextField.appendMediaLink p.area reply.path) p
    exact (linked.trans (refresh_advances _)).trans (ended _)
  next failure =>
    have failed := report_quiet [.uploadFailed failure] p
    have alerted := emit_quiet
      (e := .alert ("An error occurred uploading your media: ".toList ++ failure.message)) rfl
      ((report [.uploadFailed failure]).run p).2
    exact (failed.trans alerted).advances.trans (ended _)

theorem upload_advances (p : Page) : Advances p (upload.run p).2 := by
  have begun : Advances p { p with uploading := true } := .of_unseen rfl rfl rfl
  refine begun.trans ?_
  unfold upload
  rw [run_bind, run_bind]
  split
  next => exact finishUpload_advances _ _
  next =>
    have reported := (report_quiet [.uploading p.settings.uploadUrl] { p with uploading := true }).advances
    rw [run_bind]
    refine Advances.trans reported ?_
    split
    next => exact finishUpload_advances _ _
    next => exact .of_same rfl rfl [.fetch _ (.upload _)] rfl rfl

theorem respond_advances (number : Nat) (outcome : FetchOutcome) (p : Page) :
    Advances p ((respond number outcome).run p).2 := by
  unfold respond
  rw [run_bind]
  split
  next s hs =>
    have hmem : s ∈ p.dispatch.sent := List.mem_of_find?_eq_some hs
    split
    next failure _ => exact lookupAnswered_advances hmem _
    next body _ =>
      let log := (LookupReply.candidates body (p.wording.lookupReply body)).2
      have reported := report_quiet log p
      have hsent : s ∈ ((report log).run p).2.dispatch.sent := by
        have hd := congrArg Exchange.dispatch reported.exchange
        exact (congrArg Dispatch.sent hd) ▸ hmem
      exact reported.advances.trans (lookupAnswered_advances hsent _)
  next =>
    split
    next =>
      have taken : Advances p { p with uploads := p.uploads.erase number } :=
        .of_unseen rfl rfl rfl
      exact taken.trans (finishUpload_advances _ _)
    next => exact .refl p

theorem post_advances (p : Page) : Advances p (post.run p).2 := by
  have begun : Advances p ((emit .submitPost).run { p with posting := true }).2 :=
    .of_same rfl rfl [.submitPost] rfl rfl
  unfold post
  rw [run_bind]
  split
  next =>
    rw [run_bind, run_bind, run_bind]
    split
    next => exact begun
    next thrown _ =>
      have failed := report_quiet [.submitFailed thrown.shown]
        ((emit .submitPost).run { p with posting := true }).2
      exact (begun.trans failed.advances).trans (.of_unseen rfl rfl rfl)
  next => exact .refl p

end Page

end PostEditor
