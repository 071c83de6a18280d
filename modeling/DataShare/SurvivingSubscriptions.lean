import DataShare.ServiceRestarts

/-!
# Subscriptions across restarts of the service

If `GetProxy` fails while `OnAddSystemAbility` is processed, the keys of that time are not subscribed at
the new incarnation, and nothing tries again (`subscriptions_lost_at_restart`).

`Orderly` says what has to go well in each step for the subscriptions to survive. Then at all times
a key that is present is subscribed, or its registration is outstanding, or the recovery is yet to
come to it (`Accounted`), and a proxy that is handed out after the recovery finds all keys
subscribed (`subscriptions_survive_restarts`).
-/

namespace DataShare

namespace Cpp

namespace DataShareManagerImpl

open CallbacksManager

/-! ## What has to go well -/

/-- The thread is the recovery of incarnation `n`. -/
def Thread.recovers (n : ℕ) : Thread → Bool
  | .onAddSystemAbility m | .getServiceProxy m | .getKeys m _ _ | .resubscribe m _ _ _ => m = n
  | _ => false

/-- The recovery of incarnation `n` has yet to collect the keys of `t`. -/
def Thread.collects (n : ℕ) (t : TableId) : Thread → Bool
  | .onAddSystemAbility m | .getServiceProxy m => m = n
  | .getKeys m _ t' => m = n && t'.index ≤ t.index
  | .resubscribe m _ t' _ => m = n && t'.index < t.index
  | _ => false

/-- The keys, if they are of `t` and the call has requests of the kind. -/
def keysAt (t : TableId) (kind : RequestKind) {t' : TableId} (c : CallbacksManager.Call t'.Key ℕ ℕ)
    (keys : List t'.Key) : List t.Key :=
  if h : t' = t ∧ c.kind = kind then h.1 ▸ keys else []

/-- The keys of `t` in an outstanding call with requests of the kind. -/
def Thread.outstanding (t : TableId) (kind : RequestKind) : Thread → List t.Key
  | .sendRequest _ _ c keys | .undo _ _ c keys => keysAt t kind c keys
  | _ => []

/-- A registration is outstanding. -/
def Thread.registers : Thread → Bool
  | .sendRequest _ _ c keys | .undo _ _ c keys => c.kind = .subscribe && !keys.isEmpty
  | _ => false

/-- Once the recovery is over no registration is outstanding. -/
def Settled (pool : ServicePool) : Prop :=
  pool.shared.incarnation ∈ pool.shared.processed →
    ∀ thread ∈ pool.threads, thread.registers = false

/-- No call with requests of the kind is outstanding for a key of the list. -/
def Apart (t : TableId) (keys : List t.Key) (kind : RequestKind) (pool : ServicePool) : Prop :=
  ∀ thread ∈ pool.threads, ∀ k ∈ keys, ¬ Mentions k (thread.outstanding t kind)

/-- The recovery gets its proxy, and its requests take effect. A registration at the running incarnation
is answered or applied. One at a past incarnation adds no key once the recovery has collected them. Keys
are not registered while another registration or removal of them is outstanding, and proxies not handed
out while a registration is. -/
def Orderly (pool : ServicePool) : ServiceEvent → Prop
  | .outside _ => True
  | .advance i reply =>
    match pool.threads[i]? with
    | some (.getServiceProxy n) =>
      Settled pool ∧ (pool.shared.running n = true → (pool.shared.getProxy reply).2 ≠ none)
    | some .getProxy | some (.getProxyFor ..) => Settled pool
    | some (.call proxy t c) =>
      Apart t c.registered .subscribe pool ∧ Apart t c.registered .unsubscribe pool ∧
        (pool.shared.alive = true → proxy ≠ pool.shared.incarnation →
          (∃ thread ∈ pool.threads, thread.collects pool.shared.incarnation t = true) ∨
            ∀ k ∈ c.registered, nodesAt (pool.shared.tables t).callbacks k ≠ [])
    | some (.sendRequest proxy _ c keys) =>
      pool.shared.running proxy = true → c.kind = .subscribe →
        ∀ i < keys.length, reply.answer i ≠ .lost false
    | some (.resubscribe n proxy _ (keys :: _)) =>
      pool.shared.running n = true → pool.shared.running proxy = true →
        ∀ i < keys.length, (reply.answer i).takesEffect = true
    | _ => True

instance : DecidableRel Orderly := fun pool event => by
  rcases event with _ | ⟨i, reply⟩
  · unfold Orderly
    infer_instance
  · unfold Orderly Settled Apart
    dsimp only
    split <;> infer_instance

/-! ## One table -/

section Table

variable (t : TableId)

/-- The thread registers `k`, at the running incarnation and for its only subscriber. -/
def Waits (world : World) (k : t.Key) (thread : Thread) : Prop :=
  ∃ proxy c keys, (thread = .sendRequest proxy t c keys ∨ thread = .undo proxy t c keys) ∧
    world.running proxy = true ∧ c.kind = .subscribe ∧ Mentions k keys ∧
      eraseSubscriber c.subscriber (nodesAt (world.tables t).callbacks k) = []

/-- Every key that is present is subscribed, or is going to be. -/
def Accounted (requests : List (List t.Key)) (pool : ServicePool) : Prop :=
  ∀ k, nodesAt (pool.shared.tables t).callbacks k ≠ [] →
    (pool.shared.tables t).subscribed k = true ∨ (∃ thread ∈ pool.threads, Waits t pool.shared k thread) ∨
      ∃ request ∈ requests, Mentions k request

/-- What holds while the recovery of the running incarnation is where the thread stands. -/
def Thread.Keeps (pool : ServicePool) (thread : Thread) : Prop :=
  pool.shared.incarnation ∉ pool.shared.processed ∧
    match thread with
    | .getServiceProxy _ =>
      pool.shared.dataShareService = none ∨ pool.shared.dataShareService = some pool.shared.incarnation
    | .getKeys _ proxy t' =>
      proxy = pool.shared.incarnation ∧ (t.index < t'.index → Accounted t [] pool)
    | .resubscribe _ proxy t' requests =>
      proxy = pool.shared.incarnation ∧ (t.index < t'.index → Accounted t [] pool) ∧
        ∀ h : t' = t, Accounted t (h ▸ requests) pool
    | _ => True

/-- Keys whose removal is outstanding are not present, and the recovery keeps its facts. -/
structure Steady (pool : ServicePool) : Prop where
  recovers_le : ∀ thread ∈ pool.threads, ∀ n, thread.recovers n = true → n ≤ pool.shared.incarnation
  processed_le : ∀ n ∈ pool.shared.processed, n ≤ pool.shared.incarnation
  gone : ∀ thread ∈ pool.threads, ∀ k, Mentions k (thread.outstanding t .unsubscribe) →
    nodesAt (pool.shared.tables t).callbacks k = []
  recovery : pool.shared.alive = true →
    OneWorker (Thread.recovers pool.shared.incarnation) (Accounted t [] pool) (Thread.Keeps t pool)
      pool.threads

end Table

section Facts

variable {world : World} {reply : Reply} {t t' : TableId} {k : t.Key} {keys : List t.Key} {proxy : ℕ}
  {c : CallbacksManager.Call t.Key ℕ ℕ} {thread : Thread} {pool : ServicePool} {i : ℕ}

/-! ## Requests -/

theorem subscribed_receive {kind : RequestKind} (hnot : kind = .unsubscribe → ¬ Mentions k keys)
    (h : (world.tables t).subscribed k = true) :
    ((world.receive t (world.request proxy kind keys reply)).tables t).subscribed k = true := by
  unfold Table.subscribed World.receive
  rw [tables_setTable_self, serviceAt_append]
  by_cases hkind : kind = .unsubscribe
  · rw [World.request, requestsAt_sendRequests_eq_nil (hnot hkind)]
    exact h
  · refine foldl_apply_of_kept (P := fun sub => sub.subscribed = true)
      (fun r hr => kind_of_mem_sendRequests (List.mem_of_mem_filter hr)) (fun sub hsub => ?_) h
    cases kind with
    | unsubscribe => exact absurd rfl hkind
    | subscribe => rfl
    | enable | disable => exact hsub

/-- A request to subscribe the key that takes effect. -/
theorem subscribed_receive_of_effect (hk : Mentions k keys)
    (h : ∀ r ∈ requestsAt k (world.request proxy .subscribe keys reply), r.answer.takesEffect = true) :
    ((world.receive t (world.request proxy .subscribe keys reply)).tables t).subscribed k = true := by
  have hall : AllOf .subscribe (requestsAt k (world.request proxy .subscribe keys reply)) :=
    allOf_requestsAt_sendRequests hk
  unfold Table.subscribed World.receive
  rw [tables_setTable_self, serviceAt_append, foldl_apply_of_takesEffect hall h]
  rfl

theorem nodesAt_receive (requests : List (Request t'.Key)) :
    nodesAt ((world.receive t' requests).tables t).callbacks k =
      nodesAt (world.tables t).callbacks k := by
  by_cases h : t = t'
  · subst h
    rw [World.receive, tables_setTable_self]
  · rw [World.receive, tables_setTable_of_ne _ h]

/-- On a proxy of the running incarnation the answers are the service's. -/
theorem mem_request {kind : RequestKind} {r : Request t.Key} (hrunning : world.running proxy = true)
    (h : r ∈ world.request proxy kind keys reply) : ∃ i < keys.length, r.answer = reply.answer i := by
  rw [World.request, if_pos hrunning] at h
  obtain ⟨i, hi, rfl⟩ := List.mem_mapIdx.mp h
  exact ⟨i, hi, rfl⟩

theorem mentions_of_failedKeys {kind : RequestKind}
    (h : Mentions k (failedKeys (world.request proxy kind keys reply))) : Mentions k keys := by
  by_contra hnot
  have hnil : requestsAt k (world.request proxy kind keys reply) = [] :=
    requestsAt_sendRequests_eq_nil hnot
  rw [mentions_failedKeys, hnil] at h
  exact not_refused_nil h

/-! ## Outstanding calls -/

theorem mentions_keysAt {kind : RequestKind} {c : CallbacksManager.Call t'.Key ℕ ℕ} {keys : List t'.Key} :
    Mentions k (keysAt t kind c keys) ↔ ∃ h : t' = t, c.kind = kind ∧ Mentions k (h ▸ keys) := by
  unfold keysAt
  split
  · next h => exact ⟨fun hk => ⟨h.1, h.2, hk⟩, fun ⟨_, _, hk⟩ => hk⟩
  · next h => exact iff_of_false (by simp [Mentions]) fun ⟨ht, hkind, _⟩ => h ⟨ht, hkind⟩

theorem mentions_outstanding {kind : RequestKind} : Mentions k (thread.outstanding t kind) ↔
    ∃ proxy c keys, (thread = .sendRequest proxy t c keys ∨ thread = .undo proxy t c keys) ∧
      c.kind = kind ∧ Mentions k keys := by
  constructor
  · intro h
    cases thread with
    | sendRequest proxy t' c keys =>
      obtain ⟨rfl, hkind, hk⟩ := mentions_keysAt.mp h
      exact ⟨proxy, c, keys, .inl rfl, hkind, hk⟩
    | undo proxy t' c keys =>
      obtain ⟨rfl, hkind, hk⟩ := mentions_keysAt.mp h
      exact ⟨proxy, c, keys, .inr rfl, hkind, hk⟩
    | _ => simp [Thread.outstanding, Mentions] at h
  · rintro ⟨proxy, c, keys, rfl | rfl, hkind, hk⟩ <;> exact mentions_keysAt.mpr ⟨rfl, hkind, hk⟩

theorem Waits.mentions (h : Waits t world k thread) : Mentions k (thread.outstanding t .subscribe) := by
  obtain ⟨proxy, c, keys, hthread, -, hkind, hk, -⟩ := h
  exact mentions_outstanding.mpr ⟨proxy, c, keys, hthread, hkind, hk⟩

theorem Waits.registers (h : Waits t world k thread) : thread.registers = true := by
  obtain ⟨proxy, c, keys, rfl | rfl, -, hkind, ⟨key, hkey, -⟩, -⟩ := h <;>
  · have hne : keys ≠ [] := List.ne_nil_of_mem hkey
    simp [Thread.registers, hkind, hne]

/-- The registration goes on, unless another subscriber joins. -/
theorem Waits.of_fewer {world' : World} (h : Waits t world k thread)
    (hrunning : world'.running = world.running)
    (hfewer : Fewer (nodesAt (world.tables t).callbacks k) (nodesAt (world'.tables t).callbacks k)) :
    Waits t world' k thread := by
  obtain ⟨proxy, c, keys, hthread, hproxy, hkind, hk, hnil⟩ := h
  exact ⟨proxy, c, keys, hthread, by rw [hrunning]; exact hproxy, hkind, hk,
    hfewer.eraseSubscriber_eq_nil hnil⟩

theorem Apart.not_mentions {kind : RequestKind} (h : Apart t keys kind pool)
    (hthread : thread ∈ pool.threads) (hk : Mentions k keys) :
    ¬ Mentions k (thread.outstanding t kind) := by
  rintro ⟨key', hkey', heq'⟩
  obtain ⟨key, hkey, heq⟩ := hk
  refine h thread hthread key hkey ⟨key', hkey', ?_⟩
  exact Std.TransCmp.eq_trans (Std.OrientedCmp.eq_symm heq) heq'

/-! ## Steps -/

theorem getProxyThen_cases (world : World) (reply : Reply) (fails : World → ServiceMove)
    (goesOn : ℕ → Thread) :
    (world.getProxy reply).2 = none ∧
        world.getProxyThen reply fails goesOn = fails (world.getProxy reply).1 ∨
      ∃ proxy, (world.getProxy reply).2 = some proxy ∧
        world.getProxyThen reply fails goesOn =
          ⟨(world.getProxy reply).1, goesOn proxy, [], [proxy]⟩ := by
  unfold World.getProxyThen
  split
  · next h => exact .inl (by simp [h])
  · next proxy h => exact .inr ⟨proxy, by simp [h]⟩

/-- What a step leaves alone. -/
structure Frame (world : World) (thread : Thread) (moved : ServiceMove) : Prop where
  incarnation : moved.shared.incarnation = world.incarnation
  alive : moved.shared.alive = world.alive
  started : moved.started = []
  handle : moved.shared.dataShareService = world.dataShareService ∨
    moved.shared.dataShareService = none ∨
    ∃ p, moved.shared.dataShareService = some p ∧ world.running p = true
  processed : ∀ n ∈ moved.shared.processed, n ∈ world.processed ∨ thread.recovers n = true
  recovers : ∀ n, moved.thread.recovers n = true → thread.recovers n = true

theorem frame_getProxyThen {fails : World → ServiceMove} {goesOn : ℕ → Thread}
    (hfails : ∀ world, Frame world thread (fails world))
    (hgoesOn : ∀ proxy n, (goesOn proxy).recovers n = true → thread.recovers n = true) :
    Frame world thread (world.getProxyThen reply fails goesOn) := by
  obtain ⟨m, d, r, hworld, hd, -⟩ := getProxy_cases world reply
  rcases getProxyThen_cases world reply fails goesOn with ⟨-, heq⟩ | ⟨proxy, -, heq⟩
  · rw [heq, hworld]
    obtain ⟨hincarnation, halive, hstarted, hhandle, hprocessed, hrecovers⟩ :=
      hfails { world with dataMgrService := m, dataShareService := d, deathRecipients := r }
    refine ⟨hincarnation, halive, hstarted, ?_, hprocessed, hrecovers⟩
    rcases hhandle with hsame | hother
    · rw [hsame]
      exact hd
    · exact .inr hother
  · rw [heq, hworld]
    exact ⟨rfl, rfl, rfl, hd, fun n hn => .inl hn, hgoesOn proxy⟩

theorem frame_process (n : ℕ) (h : thread.recovers n = true) :
    Frame world thread (world.process n) := by
  refine ⟨rfl, rfl, rfl, .inl rfl, fun m hm => ?_,
    fun m hm => by simp [World.process, Thread.recovers] at hm⟩
  rcases List.mem_cons.mp hm with rfl | hm
  · exact .inr h
  · exact .inl hm

theorem frame_next (world : World) (thread : Thread) (reply : Reply) :
    Frame world thread (world.next thread reply) := by
  have hsame {moved : ServiceMove} (hshared : moved.shared = world) (hstarted : moved.started = [])
      (hrecovers : ∀ n, moved.thread.recovers n = true → thread.recovers n = true) :
      Frame world thread moved := by
    rw [← hshared]
    exact ⟨rfl, rfl, hstarted, .inl rfl, fun n hn => .inl hn, hrecovers⟩
  cases thread with
  | onRemoteDied | onAddSystemAbility n =>
    exact ⟨rfl, rfl, rfl, .inr (.inl rfl), fun n hn => .inl hn, fun n hn => hn⟩
  | getServiceProxy n =>
    exact frame_getProxyThen (fun world => frame_process n (by simp [Thread.recovers])) fun _ _ hn => hn
  | getKeys n proxy t => exact hsame rfl rfl fun _ hn => hn
  | resubscribe n proxy t requests =>
    cases requests with
    | cons keys requests => exact ⟨rfl, rfl, rfl, .inl rfl, fun n hn => .inl hn, fun n hn => hn⟩
    | nil =>
      unfold World.next
      dsimp only
      split
      · exact hsame rfl rfl fun _ hn => hn
      · exact frame_process n (by simp [Thread.recovers])
  | getProxy | getProxyFor t c =>
    exact frame_getProxyThen (fun _ => ⟨rfl, rfl, rfl, .inl rfl, fun n hn => .inl hn, fun n hn => by
      simp [Thread.recovers] at hn⟩) fun _ _ hn => by simp [Thread.recovers] at hn
  | call | sendRequest | undo =>
    exact ⟨rfl, rfl, rfl, .inl rfl, fun n hn => .inl hn, fun n hn => hn⟩
  | finished => exact hsame rfl rfl fun _ hn => hn

theorem Frame.running {moved : ServiceMove} (h : Frame world thread moved) :
    moved.shared.running = world.running := by
  funext proxy
  simp only [World.running, h.incarnation, h.alive]

/-- The step is about the table. -/
def Thread.touches (t : TableId) : Thread → Bool
  | .resubscribe _ _ t' (_ :: _) | .call _ t' _ | .sendRequest _ t' _ _ | .undo _ t' _ _ => t' = t
  | _ => false

theorem tables_getProxyThen {fails : World → ServiceMove} {goesOn : ℕ → Thread}
    (hfails : ∀ world, (fails world).shared.tables = world.tables) :
    (world.getProxyThen reply fails goesOn).shared.tables = world.tables := by
  obtain ⟨m, d, r, hworld, -, -⟩ := getProxy_cases world reply
  rcases getProxyThen_cases world reply fails goesOn with ⟨-, heq⟩ | ⟨proxy, -, heq⟩
  · rw [heq, hfails, hworld]
  · rw [heq, hworld]

theorem tables_next (h : thread.touches t = false) :
    (world.next thread reply).shared.tables t = world.tables t := by
  cases thread with
  | getServiceProxy | getProxy | getProxyFor =>
    exact congrFun (tables_getProxyThen fun _ => rfl) t
  | resubscribe n proxy t' requests =>
    cases requests with
    | cons keys requests =>
      have hne : t ≠ t' := fun heq => by simp [Thread.touches, heq] at h
      exact tables_setTable_of_ne _ hne
    | nil =>
      unfold World.next
      dsimp only
      split <;> rfl
  | call proxy t' | sendRequest proxy t' | undo proxy t' =>
    have hne : t ≠ t' := fun heq => by simp [Thread.touches, heq] at h
    exact tables_setTable_of_ne _ hne
  | _ => rfl

theorem Waits.touches (h : Waits t world k thread) : thread.touches t = true := by
  obtain ⟨proxy, c, keys, rfl | rfl, -⟩ := h <;> simp [Thread.touches]

/-- A step keeps the keys accounted for if it does so for each key that is present afterwards. -/
theorem Accounted.advance {requests : List (List t.Key)} {moved : ServiceMove}
    (h : Accounted t requests pool)
    (hkey : ∀ k, nodesAt (moved.shared.tables t).callbacks k ≠ [] →
      (moved.shared.tables t).subscribed k = true ∨ Waits t moved.shared k moved.thread ∨
        nodesAt (pool.shared.tables t).callbacks k ≠ [] ∧
          ((pool.shared.tables t).subscribed k = true → (moved.shared.tables t).subscribed k = true) ∧
          ¬ Waits t pool.shared k thread ∧
          ∀ other ∈ pool.threads, Waits t pool.shared k other → Waits t moved.shared k other)
    (hi : pool.threads[i]? = some thread) :
    Accounted t requests ⟨moved.shared, pool.threads.set i moved.thread ++ moved.started⟩ := by
  intro k hk
  obtain ⟨hlt, hthread⟩ := List.getElem?_eq_some_iff.mp hi
  rcases hkey k hk with hsub | hwaits | ⟨hne, hsub, hnot, hother⟩
  · exact .inl hsub
  · exact .inr (.inl ⟨_, List.mem_append_left _ (List.mem_set hlt _), hwaits⟩)
  · rcases h k hne with hold | ⟨other, hmem, hwaits⟩ | hrequest
    · exact .inl (hsub hold)
    · refine .inr (.inl ⟨other, List.mem_append_left _ ?_, hother other hmem hwaits⟩)
      obtain ⟨rest, hperm, hset⟩ := Protocol.exists_perm_set hi
      rcases List.mem_cons.mp (hperm.mem_iff.mp hmem) with rfl | hrest
      · exact absurd hwaits hnot
      · exact (hset moved.thread).mem_iff.mpr (List.mem_cons_of_mem _ hrest)
    · exact .inr (.inr hrequest)

/-- The loop of a call : a new key goes to the service. -/
theorem accounted_call {requests : List (List t.Key)} (h : Accounted t requests pool)
    (hi : pool.threads[i]? = some (.call proxy t c)) (hapart : Apart t c.registered .subscribe pool)
    (hstale : pool.shared.running proxy = false →
      ∀ k ∈ c.registered, nodesAt (pool.shared.tables t).callbacks k ≠ []) :
    Accounted t requests ⟨(pool.shared.next (.call proxy t c) reply).shared,
      pool.threads.set i (pool.shared.next (.call proxy t c) reply).thread ++
        (pool.shared.next (.call proxy t c) reply).started⟩ := by
  refine h.advance (fun k hk => ?_) hi
  have htables : (pool.shared.next (.call proxy t c) reply).shared.tables t =
      { pool.shared.tables t with callbacks := (c.loop (pool.shared.tables t).callbacks).callbacks } :=
    tables_setTable_self _
  have hnot : ¬ Waits t pool.shared k (.call proxy t c) := by
    rintro ⟨_, _, _, heq | heq, -⟩ <;> cases heq
  by_cases hregistered : Mentions k c.registered
  · by_cases hnil : nodesAt (pool.shared.tables t).callbacks k = []
    · obtain ⟨key, hkey, heq⟩ := hregistered
      refine .inr (.inl ⟨proxy, c, _, .inl rfl, ?_, kind_of_registered ⟨key, hkey, heq⟩,
        mentions_loop_keys ⟨key, hkey, heq⟩ hnil, ?_⟩)
      · by_contra hrunning
        refine hstale ((Bool.not_eq_true _).mp hrunning) key hkey ?_
        rw [nodesAt_congr heq]
        exact hnil
      · rw [htables]
        dsimp only
        rw [eraseSubscriber_loop (kind_of_registered ⟨key, hkey, heq⟩), hnil]
        rfl
    · refine .inr (.inr ⟨hnil, fun hsub => by rw [htables]; exact hsub, hnot, ?_⟩)
      exact fun other hmem hwaits => absurd hwaits.mentions (hapart.not_mentions hmem hregistered)
  · have hfewer : Fewer (nodesAt (pool.shared.tables t).callbacks k)
        (nodesAt ((pool.shared.next (.call proxy t c) reply).shared.tables t).callbacks k) := by
      rw [htables]
      exact fewer_loop hregistered
    refine .inr (.inr ⟨hfewer.ne_nil hk, fun hsub => by rw [htables]; exact hsub, hnot, ?_⟩)
    exact fun other _ hwaits => hwaits.of_fewer rfl hfewer

theorem accounted_sendRequest {requests : List (List t.Key)} (h : Accounted t requests pool)
    (hi : pool.threads[i]? = some (.sendRequest proxy t c keys))
    (hgone : c.kind = .unsubscribe → ∀ k, Mentions k keys →
      nodesAt (pool.shared.tables t).callbacks k = [])
    (hanswers : pool.shared.running proxy = true → c.kind = .subscribe →
      ∀ i < keys.length, reply.answer i ≠ .lost false) :
    Accounted t requests ⟨(pool.shared.next (.sendRequest proxy t c keys) reply).shared,
      pool.threads.set i (pool.shared.next (.sendRequest proxy t c keys) reply).thread ++
        (pool.shared.next (.sendRequest proxy t c keys) reply).started⟩ := by
  refine h.advance (fun k hk => ?_) hi
  have hnodes : nodesAt ((pool.shared.next (.sendRequest proxy t c keys) reply).shared.tables t).callbacks
      k = nodesAt (pool.shared.tables t).callbacks k := nodesAt_receive _
  rw [hnodes] at hk
  by_cases hwaits : Waits t pool.shared k (.sendRequest proxy t c keys)
  · obtain ⟨_, _, _, heq | heq, hrunning, hkind, hmentions, hnil⟩ := hwaits <;> cases heq
    by_cases hfailed : Mentions k (failedKeys (pool.shared.request proxy c.kind keys reply))
    · -- the refused key is about to be undone
      exact .inr (.inl ⟨proxy, c, _, .inr rfl, hrunning, hkind, hfailed, by rw [hnodes]; exact hnil⟩)
    · refine .inl ?_
      simp only [World.next]
      rw [hkind] at hfailed ⊢
      refine subscribed_receive_of_effect hmentions fun r hr => ?_
      obtain ⟨i, hi, hanswer⟩ := mem_request hrunning (List.mem_of_mem_filter hr)
      have hrefused : r.answer.refused ≠ true := fun hrefused =>
        hfailed (mentions_failedKeys.mpr ⟨r, hr, hrefused⟩)
      have hlost : r.answer ≠ .lost false := by
        rw [hanswer]
        exact hanswers hrunning hkind i hi
      cases hcase : r.answer with
      | replied errCode => simpa [hcase, Answer.refused, Answer.takesEffect] using hrefused
      | lost applied => simpa [hcase, Answer.takesEffect] using hlost
  · refine .inr (.inr ⟨hk, fun hsub => ?_, hwaits, fun other _ hother => ?_⟩)
    · exact subscribed_receive (fun hkind hmentions => hk (hgone hkind k hmentions)) hsub
    · exact hother.of_fewer rfl (by rw [hnodes]; exact .refl)

theorem accounted_undo {requests : List (List t.Key)} (h : Accounted t requests pool)
    (hi : pool.threads[i]? = some (.undo proxy t c keys)) :
    Accounted t requests ⟨(pool.shared.next (.undo proxy t c keys) reply).shared,
      pool.threads.set i (pool.shared.next (.undo proxy t c keys) reply).thread ++
        (pool.shared.next (.undo proxy t c keys) reply).started⟩ := by
  refine h.advance (fun k hk => ?_) hi
  have htables : (pool.shared.next (.undo proxy t c keys) reply).shared.tables t =
      { pool.shared.tables t with callbacks := c.undo keys (pool.shared.tables t).callbacks } :=
    tables_setTable_self _
  rw [htables] at hk
  by_cases hwaits : Waits t pool.shared k (.undo proxy t c keys)
  · obtain ⟨_, _, _, heq | heq, -, hkind, hmentions, hnil⟩ := hwaits <;> cases heq
    dsimp only at hk
    rw [nodesAt_undo hkind hmentions] at hk
    exact absurd hnil hk
  · have hfewer : Fewer (nodesAt (pool.shared.tables t).callbacks k)
        (nodesAt ((pool.shared.next (.undo proxy t c keys) reply).shared.tables t).callbacks k) := by
      rw [htables]
      exact fewer_undo
    refine .inr (.inr ⟨fewer_undo.ne_nil hk, fun hsub => by rw [htables]; exact hsub, hwaits, ?_⟩)
    exact fun other _ hother => hother.of_fewer rfl hfewer

theorem accounted_resubscribe {requests : List (List t.Key)} {n : ℕ} {pending : List (List t.Key)}
    (h : Accounted t requests pool)
    (hi : pool.threads[i]? = some (.resubscribe n proxy t (keys :: pending))) :
    Accounted t requests ⟨(pool.shared.next (.resubscribe n proxy t (keys :: pending)) reply).shared,
      pool.threads.set i (pool.shared.next (.resubscribe n proxy t (keys :: pending)) reply).thread ++
        (pool.shared.next (.resubscribe n proxy t (keys :: pending)) reply).started⟩ := by
  refine h.advance (fun k hk => ?_) hi
  have hnodes : nodesAt ((pool.shared.next (.resubscribe n proxy t (keys :: pending))
      reply).shared.tables t).callbacks k = nodesAt (pool.shared.tables t).callbacks k :=
    nodesAt_receive _
  rw [hnodes] at hk
  refine .inr (.inr ⟨hk, subscribed_receive (by simp), ?_, fun other _ hother => ?_⟩)
  · rintro ⟨_, _, _, heq | heq, -⟩ <;> cases heq
  · exact hother.of_fewer rfl (by rw [hnodes]; exact .refl)

/-- A step keeps the keys of a table accounted for once they are collected. -/
theorem Accounted.next {requests : List (List t.Key)} (h : Accounted t requests pool)
    (hi : pool.threads[i]? = some thread) (hallowed : Orderly pool (.advance i reply))
    (halive : pool.shared.alive = true)
    (hgone : ∀ k, Mentions k (thread.outstanding t .unsubscribe) →
      nodesAt (pool.shared.tables t).callbacks k = [])
    (hcollected : ∀ other ∈ pool.threads, other.collects pool.shared.incarnation t = false) :
    Accounted t requests ⟨(pool.shared.next thread reply).shared,
      pool.threads.set i (pool.shared.next thread reply).thread ++
        (pool.shared.next thread reply).started⟩ := by
  rcases htouches : thread.touches t with _ | _
  · refine h.advance (fun k hk => .inr (.inr ?_)) hi
    rw [tables_next htouches] at hk ⊢
    refine ⟨hk, id, fun hwaits => by simp [hwaits.touches] at htouches, fun other _ hother => ?_⟩
    refine hother.of_fewer (frame_next _ _ _).running ?_
    rw [tables_next htouches]
    exact .refl
  · simp only [Orderly, hi] at hallowed
    cases thread with
    | call proxy t' c =>
      obtain rfl : t' = t := by simpa [Thread.touches] using htouches
      refine accounted_call h hi hallowed.1 fun hrunning => ?_
      have hne : proxy ≠ pool.shared.incarnation := by
        simpa [World.running, halive] using hrunning
      refine (hallowed.2.2 halive hne).resolve_left ?_
      rintro ⟨other, hmem, hcollects⟩
      simp [hcollected other hmem] at hcollects
    | sendRequest proxy t' c keys =>
      obtain rfl : t' = t := by simpa [Thread.touches] using htouches
      refine accounted_sendRequest h hi (fun hkind k hk => hgone k ?_) hallowed
      exact mentions_keysAt.mpr ⟨rfl, hkind, hk⟩
    | undo proxy t' c failed =>
      obtain rfl : t' = t := by simpa [Thread.touches] using htouches
      exact accounted_undo h hi
    | resubscribe n proxy t' requests =>
      cases requests with
      | nil => simp [Thread.touches] at htouches
      | cons keys requests =>
        obtain rfl : t' = t := by simpa [Thread.touches] using htouches
        exact accounted_resubscribe h hi
    | _ => simp [Thread.touches] at htouches

/-- Only a registration of the key gives it more observers. -/
theorem fewer_next (hnot : ∀ proxy c, thread = .call proxy t c → ¬ Mentions k c.registered) :
    Fewer (nodesAt (world.tables t).callbacks k)
      (nodesAt ((world.next thread reply).shared.tables t).callbacks k) := by
  rcases htouches : thread.touches t with _ | _
  · rw [tables_next htouches]
    exact .refl
  · cases thread with
    | call proxy t' c =>
      obtain rfl : t' = t := by simpa [Thread.touches] using htouches
      simp only [World.next, World.setCallbacks, tables_setTable_self]
      exact fewer_loop (hnot proxy c rfl)
    | sendRequest proxy t' c keys =>
      simp only [World.next, nodesAt_receive]
      exact .refl
    | undo proxy t' c failed =>
      obtain rfl : t' = t := by simpa [Thread.touches] using htouches
      simp only [World.next, World.setCallbacks, tables_setTable_self]
      exact fewer_undo
    | resubscribe n proxy t' requests =>
      cases requests with
      | nil => simp [Thread.touches] at htouches
      | cons keys requests =>
        simp only [World.next, nodesAt_receive]
        exact .refl
    | _ => simp [Thread.touches] at htouches

theorem outstanding_getProxyThen {kind : RequestKind} {fails : World → ServiceMove} {goesOn : ℕ → Thread}
    (hfails : ∀ world, (fails world).thread.outstanding t kind = [])
    (hgoesOn : ∀ proxy, (goesOn proxy).outstanding t kind = []) :
    (world.getProxyThen reply fails goesOn).thread.outstanding t kind = [] := by
  rcases getProxyThen_cases world reply fails goesOn with ⟨-, heq⟩ | ⟨proxy, -, heq⟩
  · rw [heq, hfails]
  · rw [heq, hgoesOn]

/-- The removals a thread begins, or goes on with, are of keys that are gone. -/
theorem gone_next (hgone : Mentions k (thread.outstanding t .unsubscribe) →
      nodesAt (world.tables t).callbacks k = [])
    (hk : Mentions k ((world.next thread reply).thread.outstanding t .unsubscribe)) :
    nodesAt ((world.next thread reply).shared.tables t).callbacks k = [] := by
  have hnil (h : (world.next thread reply).thread.outstanding t .unsubscribe = []) :
      nodesAt ((world.next thread reply).shared.tables t).callbacks k = [] := by
    simp [h, Mentions] at hk
  cases thread with
  | call proxy t' c =>
    obtain ⟨rfl, hkind, hmentions⟩ := mentions_keysAt.mp hk
    simp only [World.next, World.setCallbacks, tables_setTable_self]
    exact nodesAt_loop_of_unsubscribe hkind hmentions
  | sendRequest proxy t' c keys =>
    obtain ⟨rfl, hkind, hmentions⟩ := mentions_keysAt.mp hk
    simp only [World.next, nodesAt_receive]
    exact hgone (mentions_keysAt.mpr ⟨rfl, hkind, mentions_of_failedKeys hmentions⟩)
  | getServiceProxy | getProxy | getProxyFor =>
    exact hnil (outstanding_getProxyThen (fun _ => rfl) fun _ => rfl)
  | resubscribe n proxy t' requests =>
    refine hnil ?_
    cases requests with
    | nil =>
      unfold World.next
      dsimp only
      split <;> rfl
    | cons keys requests => rfl
  | _ => exact hnil rfl

/-! ## The recovery -/

/-- Only the recovery itself has yet to collect keys. -/
theorem collects_eq_false {idle : Prop} {busy : Thread → Prop} {n : ℕ} {worker : Thread}
    (h : OneWorker (Thread.recovers n) idle busy pool.threads) (hmem : worker ∈ pool.threads)
    (hworker : worker.recovers n = true) (hpast : worker.collects n t = false) :
    ∀ other ∈ pool.threads, other.collects n t = false := by
  intro other hother
  rcases hrecovers : other.recovers n with _ | _
  · cases other <;> simp_all [Thread.recovers, Thread.collects]
  · rw [h.unique hmem hworker hother hrecovers]
    exact hpast

/-- The recovery keeps its facts while another thread moves. -/
theorem Thread.Keeps.next {worker : Thread} (h : worker.Keeps t pool)
    (hone : OneWorker (Thread.recovers pool.shared.incarnation) (Accounted t [] pool)
      (Thread.Keeps t pool) pool.threads)
    (hmem : worker ∈ pool.threads) (hworker : worker.recovers pool.shared.incarnation = true)
    (hi : pool.threads[i]? = some thread) (hother : thread.recovers pool.shared.incarnation = false)
    (hallowed : Orderly pool (.advance i reply)) (halive : pool.shared.alive = true)
    (hgone : ∀ k, Mentions k (thread.outstanding t .unsubscribe) →
      nodesAt (pool.shared.tables t).callbacks k = []) :
    worker.Keeps t ⟨(pool.shared.next thread reply).shared,
      pool.threads.set i (pool.shared.next thread reply).thread ++
        (pool.shared.next thread reply).started⟩ := by
  have hframe := frame_next pool.shared thread reply
  have haccounted {requests : List (List t.Key)}
      (hpast : worker.collects pool.shared.incarnation t = false) (h : Accounted t requests pool) :=
    h.next hi hallowed halive hgone (collects_eq_false hone hmem hworker hpast)
  refine ⟨fun hin => ?_, ?_⟩
  · rw [hframe.incarnation] at hin
    rcases hframe.processed _ hin with hin | hrecovers
    · exact h.1 hin
    · simp [hother] at hrecovers
  · have h := h.2
    cases worker with
    | getServiceProxy n =>
      dsimp only at h ⊢
      rw [hframe.incarnation]
      rcases hframe.handle with heq | hnone | ⟨p, hp, hrunning⟩
      · rwa [heq]
      · exact .inl hnone
      · refine .inr ?_
        simp only [World.running, Bool.and_eq_true, decide_eq_true_eq] at hrunning
        rw [hp, hrunning.2]
    | getKeys n proxy t' =>
      dsimp only at h ⊢
      rw [hframe.incarnation]
      refine ⟨h.1, fun hlt => haccounted ?_ (h.2 hlt)⟩
      simp [Thread.collects, hlt]
    | resubscribe n proxy t' requests =>
      dsimp only at h ⊢
      rw [hframe.incarnation]
      refine ⟨h.1, fun hlt => haccounted ?_ (h.2.1 hlt), fun heq => haccounted ?_ (h.2.2 heq)⟩
      · simp [Thread.collects, hlt.le]
      · simp [Thread.collects, heq]
    | _ => trivial

theorem TableId.index_of_after {t t' : TableId} (h : t.after = some t') : t'.index = t.index + 1 := by
  cases t <;> cases h <;> rfl

theorem TableId.index_le_of_after {t t' : TableId} (h : t'.after = none) : t.index ≤ t'.index := by
  cases t' <;> cases t <;> simp_all [TableId.after, TableId.index]

theorem TableId.eq_of_index {t t' : TableId} (h : t.index = t'.index) : t = t' := by
  cases t <;> cases t' <;> simp_all [TableId.index]

/-- The proxy the recovery gets is one of the running incarnation. -/
theorem getProxy_eq_incarnation
    (h : world.dataShareService = none ∨ world.dataShareService = some world.incarnation)
    (hproxy : (world.getProxy reply).2 = some proxy) : proxy = world.incarnation := by
  obtain ⟨m, d, r, -, hd, hresult⟩ := getProxy_cases world reply
  have hsome : d = some proxy := hresult proxy hproxy
  rcases hd with rfl | rfl | ⟨p, rfl, hrunning⟩
  · rcases h with h | h <;> simp_all
  · simp at hsome
  · simp only [World.running, Bool.and_eq_true, decide_eq_true_eq] at hrunning
    rw [← hrunning.2]
    exact (Option.some_inj.mp hsome).symm

/-- The step of the recovery itself. -/
theorem keeps_next (hone : OneWorker (Thread.recovers pool.shared.incarnation) (Accounted t [] pool)
      (Thread.Keeps t pool) pool.threads) (hi : pool.threads[i]? = some thread)
    (hworks : thread.recovers pool.shared.incarnation = true) (h : thread.Keeps t pool)
    (hallowed : Orderly pool (.advance i reply)) (halive : pool.shared.alive = true) :
    OneWorker (Thread.recovers pool.shared.incarnation)
      (Accounted t [] ⟨(pool.shared.next thread reply).shared,
        pool.threads.set i (pool.shared.next thread reply).thread ++
          (pool.shared.next thread reply).started⟩)
      (Thread.Keeps t ⟨(pool.shared.next thread reply).shared,
        pool.threads.set i (pool.shared.next thread reply).thread ++
          (pool.shared.next thread reply).started⟩)
      ((pool.shared.next thread reply).thread :: (pool.shared.next thread reply).started) := by
  have hmem := List.mem_of_getElem? hi
  have hnext {requests : List (List t.Key)}
      (hpast : thread.collects pool.shared.incarnation t = false) (h : Accounted t requests pool) :=
    h.next hi hallowed halive (fun k hk => by cases thread <;> simp [Thread.recovers, Thread.outstanding,
      Mentions] at hworks hk) (collects_eq_false hone hmem hworks hpast)
  have hrunning : pool.shared.running pool.shared.incarnation = true := by
    simp [World.running, halive]
  obtain ⟨hprocessed, hkeeps⟩ := h
  have hallowed' := hallowed
  simp only [Orderly, hi] at hallowed'
  cases thread with
  | onAddSystemAbility n => exact .single hworks ⟨hprocessed, .inl rfl⟩
  | getServiceProxy n =>
    obtain rfl : n = pool.shared.incarnation := by simpa [Thread.recovers] using hworks
    rcases getProxyThen_cases pool.shared reply (fun world => world.process pool.shared.incarnation)
      fun proxy => .getKeys pool.shared.incarnation proxy .rdb with ⟨hnone, -⟩ | ⟨proxy, hproxy, heq⟩
    · exact absurd hnone (hallowed'.2 hrunning)
    · have hincarnation := getProxy_eq_incarnation hkeeps hproxy
      obtain ⟨m, d, r, hworld, -⟩ := getProxy_cases pool.shared reply
      simp only [World.next, heq, hworld]
      exact .single hworks ⟨hprocessed, hincarnation, fun hlt => absurd hlt (Nat.not_lt_zero _)⟩
  | getKeys n proxy t' =>
    refine .single hworks ⟨hprocessed, hkeeps.1, fun hlt => hnext ?_ (hkeeps.2 hlt), ?_⟩
    · simp [Thread.collects, hlt]
    · rintro rfl k hk
      exact .inr (.inr (mentions_recoverObservers (mentions_keys_of_ne_nil hk)))
  | resubscribe n proxy t' requests =>
    have hlt (hlt : t.index < t'.index) := hnext (by simp [Thread.collects, hlt.le]) (hkeeps.2.1 hlt)
    have heq (heq : t' = t) := hnext (by simp [Thread.collects, heq]) (hkeeps.2.2 heq)
    obtain rfl : n = pool.shared.incarnation := by simpa [Thread.recovers] using hworks
    obtain rfl := hkeeps.1
    cases requests with
    | cons keys requests =>
      refine .single hworks ⟨hprocessed, rfl, hlt, ?_⟩
      rintro rfl k hk
      rcases heq rfl k hk with hsub | hwaits | ⟨request, hrequest, hmentions⟩
      · exact .inl hsub
      · exact .inr (.inl hwaits)
      · rcases List.mem_cons.mp hrequest with rfl | hrequest
        · refine .inl (subscribed_receive_of_effect hmentions fun r hr => ?_)
          obtain ⟨i, hi, hanswer⟩ := mem_request hrunning (List.mem_of_mem_filter hr)
          rw [hanswer]
          exact hallowed' hrunning hrunning i hi
        · exact .inr (.inr ⟨request, hrequest, hmentions⟩)
    | nil =>
      have haccounted (hle : t.index ≤ t'.index) := hnext (by simp [Thread.collects, hle])
        ((Nat.lt_or_eq_of_le hle).elim hkeeps.2.1 fun hindex => by
          obtain rfl := TableId.eq_of_index hindex
          exact hkeeps.2.2 rfl)
      simp only [World.next] at haccounted ⊢
      split at haccounted
      · next t'' hafter =>
        refine .single hworks ⟨hprocessed, rfl, fun hindex => haccounted ?_⟩
        have := TableId.index_of_after hafter
        omega
      · next hafter =>
        refine .nobody (by simp [World.process, Thread.recovers]) ?_
        exact haccounted (TableId.index_le_of_after hafter)
  | _ => simp [Thread.recovers] at hworks

/-! ## Runs -/

theorem Accounted.append {requests : List (List t.Key)} (h : Accounted t requests pool)
    (started : List Thread) : Accounted t requests ⟨pool.shared, pool.threads ++ started⟩ := by
  intro k hk
  refine (h k hk).imp id (.imp ?_ id)
  rintro ⟨thread, hmem, hwaits⟩
  exact ⟨thread, List.mem_append_left _ hmem, hwaits⟩

theorem Thread.Keeps.append (h : thread.Keeps t pool) (started : List Thread) :
    thread.Keeps t ⟨pool.shared, pool.threads ++ started⟩ := by
  refine ⟨h.1, ?_⟩
  have h := h.2
  cases thread with
  | getServiceProxy => exact h
  | getKeys => exact ⟨h.1, fun hlt => (h.2 hlt).append started⟩
  | resubscribe =>
    exact ⟨h.1, fun hlt => (h.2.1 hlt).append started, fun heq => (h.2.2 heq).append started⟩
  | _ => trivial

/-- Threads that neither recover nor remove join. -/
theorem Steady.append (h : Steady t pool) {started : List Thread}
    (hrecovers : ∀ thread ∈ started, ∀ n, thread.recovers n = false)
    (hnil : ∀ thread ∈ started, thread.outstanding t .unsubscribe = []) :
    Steady t ⟨pool.shared, pool.threads ++ started⟩ where
  recovers_le thread hmem n hn := by
    rcases List.mem_append.mp hmem with hmem | hmem
    · exact h.recovers_le thread hmem n hn
    · simp [hrecovers thread hmem] at hn
  processed_le := h.processed_le
  gone thread hmem k hk := by
    rcases List.mem_append.mp hmem with hmem | hmem
    · exact h.gone thread hmem k hk
    · simp [hnil thread hmem, Mentions] at hk
  recovery halive := ((h.recovery halive).mono (fun h => h.append started)
    fun _ _ h => h.append started).append fun thread hmem => hrecovers thread hmem _

theorem Steady.outside (h : Steady t pool) (event : Outside) :
    Steady t ⟨(pool.shared.outside event).1, pool.threads ++ (pool.shared.outside event).2⟩ := by
  cases event with
  | getServiceProxy | call =>
    refine h.append ?_ ?_ <;> simp [World.outside, Thread.recovers, Thread.outstanding]
  | die =>
    unfold World.outside
    dsimp only
    split
    · have hdead : Steady t ⟨{ pool.shared with alive := false, deathRecipients := 0 }, pool.threads⟩ :=
        ⟨h.recovers_le, h.processed_le, h.gone, fun halive => absurd halive Bool.false_ne_true⟩
      refine hdead.append ?_ ?_ <;> simp [Thread.recovers, Thread.outstanding]
    · exact h.append (by simp) (by simp)
  | start =>
    unfold World.outside
    dsimp only
    split
    · exact h.append (by simp) (by simp)
    · refine ⟨fun thread hmem n hn => ?_, fun n hn => (h.processed_le n hn).trans (Nat.le_succ _),
        fun thread hmem k hk => ?_, fun _ => ?_⟩
      · rcases List.mem_append.mp hmem with hmem | hmem
        · exact (h.recovers_le thread hmem n hn).trans (Nat.le_succ _)
        · obtain rfl := List.mem_singleton.mp hmem
          have heq : pool.shared.incarnation + 1 = n := by simpa [Thread.recovers] using hn
          exact heq.ge
      · rcases List.mem_append.mp hmem with hmem | hmem
        · exact h.gone thread hmem k hk
        · obtain rfl := List.mem_singleton.mp hmem
          simp [Thread.outstanding, Mentions] at hk
      · -- the numbers of all earlier recoveries are smaller
        refine .start (fun thread hmem => ?_)
          (.single (by simp [Thread.recovers]) ⟨fun hin => ?_, trivial⟩)
        · by_contra hrecovers
          exact Nat.not_succ_le_self _ (h.recovers_le thread hmem _ (by simpa using hrecovers))
        · exact Nat.not_succ_le_self _ (h.processed_le _ hin)

theorem Steady.next (h : Steady t pool) (hi : pool.threads[i]? = some thread)
    (hallowed : Orderly pool (.advance i reply)) :
    Steady t ⟨(pool.shared.next thread reply).shared,
      pool.threads.set i (pool.shared.next thread reply).thread ++
        (pool.shared.next thread reply).started⟩ := by
  have hframe := frame_next pool.shared thread reply
  have hmem := List.mem_of_getElem? hi
  have hcases {other : Thread} (hother : other ∈
      pool.threads.set i (pool.shared.next thread reply).thread ++
        (pool.shared.next thread reply).started) :
      other ∈ pool.threads ∨ other = (pool.shared.next thread reply).thread := by
    rw [hframe.started, List.append_nil] at hother
    exact List.mem_or_eq_of_mem_set hother
  refine ⟨fun other hother n hn => ?_, fun n hn => ?_, fun other hother k hk => ?_, fun halive => ?_⟩
  · rw [hframe.incarnation]
    rcases hcases hother with hin | rfl
    · exact h.recovers_le other hin n hn
    · exact h.recovers_le thread hmem n (hframe.recovers n hn)
  · rw [hframe.incarnation]
    exact (hframe.processed n hn).elim (h.processed_le n) (h.recovers_le thread hmem n)
  · rcases hcases hother with hin | rfl
    · have hfewer : Fewer (nodesAt (pool.shared.tables t).callbacks k)
          (nodesAt ((pool.shared.next thread reply).shared.tables t).callbacks k) := by
        refine fewer_next fun proxy c heq hregistered => ?_
        subst heq
        simp only [Orderly, hi] at hallowed
        exact hallowed.2.1.not_mentions hin hregistered hk
      by_contra hne
      exact hfewer.ne_nil hne (h.gone other hin k hk)
    · exact gone_next (h.gone thread hmem k) hk
  · rw [hframe.alive] at halive
    have hone := h.recovery halive
    rw [hframe.incarnation]
    refine hone.advance hi (fun hworks hkeeps => keeps_next hone hi hworks hkeeps hallowed halive) ?_ ?_
    · intro hworks haccounted hnone
      refine .nobody (fun other hother => ?_) (haccounted.next hi hallowed halive (h.gone thread hmem) ?_)
      · rw [hframe.started] at hother
        obtain rfl := List.mem_singleton.mp hother
        by_contra hrecovers
        simp [hframe.recovers _ (by simpa using hrecovers)] at hworks
      · intro other hother
        have hrecovers := hnone other hother
        cases other <;> simp_all [Thread.recovers, Thread.collects]
    · intro hworks worker hworker hrecovers hkeeps
      refine ⟨hkeeps.next hone hworker hrecovers hi hworks hallowed halive (h.gone thread hmem), ?_⟩
      intro other hother
      rw [hframe.started] at hother
      obtain rfl := List.mem_singleton.mp hother
      by_contra hrecovers
      simp [hframe.recovers _ (by simpa using hrecovers)] at hworks

theorem Steady.run {events : List ServiceEvent}
    (h : AllowedRun serviceMachine.step Orderly ⟨.initial, []⟩ events) : Steady t (poolAfter events) := by
  refine h.invariant (P := fun pool _ => Steady t pool) ?_ fun pool log event hallowed h => ?_
  · exact ⟨by simp, by simp [World.initial], by simp, by simp [World.initial]⟩
  · refine @Machine.step_invariant _ _ _ _ _ _ _ (fun pool _ => Steady t pool) log _ h ?_ ?_
    · rintro e rfl
      exact h.outside e
    · rintro i reply thread rfl hi
      exact h.next hi hallowed

/-- A step that hands out a proxy is one that asks for it. -/
theorem settled_of_sent (hi : pool.threads[i]? = some thread) (hallowed : Orderly pool (.advance i reply))
    (hsent : proxy ∈ (pool.shared.next thread reply).sent) : Settled pool := by
  simp only [Orderly, hi] at hallowed
  cases thread with
  | getServiceProxy => exact hallowed.1
  | getProxy | getProxyFor => exact hallowed
  | resubscribe n proxy t requests =>
    cases requests with
    | nil =>
      unfold World.next at hsent
      dsimp only at hsent
      split at hsent <;> cases hsent
    | cons => cases hsent
  | _ => cases hsent

theorem Steady.subscribed (h : Steady t pool) (hsettled : Settled pool)
    (hrunning : pool.shared.running proxy = true) (hprocessed : proxy ∈ pool.shared.processed)
    (hk : nodesAt (pool.shared.tables t).callbacks k ≠ []) :
    (pool.shared.tables t).subscribed k = true := by
  simp only [World.running, Bool.and_eq_true, decide_eq_true_eq] at hrunning
  obtain ⟨halive, rfl⟩ := hrunning
  rcases h.recovery halive with ⟨-, haccounted⟩ | ⟨worker, rest, -, -, -, hkeeps⟩
  · rcases haccounted k hk with hsub | ⟨thread, hmem, hwaits⟩ | ⟨request, hrequest, -⟩
    · exact hsub
    · have := hsettled hprocessed thread hmem
      simp [hwaits.registers] at this
    · cases hrequest
  · exact absurd hprocessed hkeeps.1

end Facts

/-- In a run of orderly steps the subscriptions survive all restarts of the service. -/
theorem subscriptions_survive_restarts (events : List ServiceEvent)
    (h : AllowedRun serviceMachine.step Orderly ⟨.initial, []⟩ events) : SurvivesRestarts events := by
  rintro before event after rfl proxy hsent hrunning hprocessed t k hk
  have hsteady : Steady t (poolAfter before) := .run h.of_append.1
  have hallowed : Orderly (poolAfter before) event := h before event after rfl
  refine hsteady.subscribed ?_ hrunning hprocessed hk
  rcases event with e | ⟨i, reply⟩
  · cases hsent
  · rcases hi : (poolAfter before).threads[i]? with _ | thread
    · rw [Machine.step_advance_of_none hi] at hsent
      cases hsent
    · rw [Machine.step_advance_of_some hi] at hsent
      exact settled_of_sent hi hallowed hsent

/-- Everything succeeds. -/
def goodReply : Reply :=
  ⟨true, true, true, fun _ => .replied errOk⟩

/-- The service is not found. -/
def notFound : Reply :=
  { goodReply with checkSystemAbility := false }

/-- Thread `i` makes `n` steps. -/
def advances (i n : ℕ) : List ServiceEvent :=
  List.replicate n (.advance i goodReply)

/-- The service is started and the recovery finds empty tables. Then an observer of the uri `A` of proxy
data is registered, and the service dies and is started again. -/
def registeredAndRestarted : List ServiceEvent :=
  ([.outside .start] : List ServiceEvent) ++ advances 0 8 ++
    ([.outside (.call .proxyData (.addProxyDataObservers [⟨[65]⟩] 7 (some 8)))] : List ServiceEvent) ++
    advances 1 4 ++ ([.outside .die, .outside .start] : List ServiceEvent)

/-- The lookup fails once, in `OnAddSystemAbility`. -/
def lookupFails : List ServiceEvent :=
  registeredAndRestarted ++ advances 2 1 ++ advances 3 1 ++
    ([.advance 3 notFound] : List ServiceEvent)

/-- If `GetProxy` fails while `OnAddSystemAbility` is processed, the proxies that are handed out
later find the earlier keys without a subscription. -/
theorem subscriptions_lost_at_restart :
    ¬ SurvivesRestarts (lookupFails ++ [.outside .getServiceProxy, .advance 4 goodReply]) := by
  intro h
  have := h (lookupFails ++ [.outside .getServiceProxy]) (.advance 4 goodReply) [] (by simp) 2
    (by decide +kernel) (by decide +kernel) (by decide +kernel) .proxyData ⟨[65]⟩ (by decide +kernel)
  revert this
  decide +kernel

/-- The lookup succeeds, and the key is subscribed at both incarnations. -/
theorem subscriptions_survive_restart :
    SurvivesRestarts (registeredAndRestarted ++ advances 2 1 ++ advances 3 10 ++
      [.outside .getServiceProxy] ++ advances 4 1) :=
  subscriptions_survive_restarts _ (throughout_iff_getElem.mpr (by decide +kernel))

end DataShareManagerImpl

end Cpp

end DataShare
