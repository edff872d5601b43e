import Mathlib.Data.List.Induction
import SasBackend.Semantics.Middleware

/-! The application is fed no more than the limit, and what it sends after that becomes one refusal.
Every response that leaves has the security headers, the request's id and the status that is logged.
-/
namespace Middleware

variable {stack : Stack} {scope : Scope} {fresh : Nat} {c : Connection} {events before after : List Event}
  {headers : List Header} {name value : Text}

/-- The values of a header, whatever the case of its name. -/
def valuesOf (headers : List Header) (name : Text) : List Text :=
  (headers.filter (lower ·.1 = name)).map Prod.snd

theorem valuesOf_setHeader_other {other : Text} (apart : other ≠ name) (plain : lower name = name) (force : Bool) :
    valuesOf (setHeader name value force headers) other = valuesOf headers other := by
  induction headers with
  | nil => simp [setHeader,valuesOf,plain,apart.symm]
  | cons pair headers induction =>
    obtain ⟨existing,old⟩ := pair
    unfold valuesOf at induction ⊢
    rw [setHeader]
    split
    next same =>
      have skipped : lower existing ≠ other := fun found => apart (found.symm.trans same)
      cases force <;> simp [skipped,plain,apart.symm]
    next => by_cases found : lower existing = other <;> simp [found,induction]

theorem head_setHeader (plain : lower name = name) (force : Bool) :
    (valuesOf (setHeader name value force headers) name).head? =
      some (if force then value else (valuesOf headers name).head?.getD value) := by
  induction headers with
  | nil => cases force <;> simp [setHeader,valuesOf,plain]
  | cons pair headers induction =>
    obtain ⟨existing,old⟩ := pair
    unfold valuesOf at induction ⊢
    rw [setHeader]
    split
    next same => cases force <;> simp [same,plain]
    next other => simp [other,induction]

/-- Each header of the list is what was there first, or the value of the list. -/
theorem valuesOf_foldl {pairs : List Header} (plain : ∀ pair ∈ pairs, lower pair.1 = pair.1)
    (distinct : (pairs.map Prod.fst).Nodup) (headers : List Header) :
    (∀ pair ∈ pairs, (valuesOf (pairs.foldl (fun headers pair => setHeader pair.1 pair.2 false headers) headers) pair.1).head? =
      some ((valuesOf headers pair.1).head?.getD pair.2)) ∧
    ∀ name ∉ pairs.map Prod.fst,
      valuesOf (pairs.foldl (fun headers pair => setHeader pair.1 pair.2 false headers) headers) name =
        valuesOf headers name := by
  induction pairs generalizing headers with
  | nil => exact ⟨by simp,fun _ _ => rfl⟩
  | cons pair pairs induction =>
    rw [List.map_cons,List.nodup_cons] at distinct
    obtain ⟨here,later⟩ := induction (fun other inside => plain other (List.mem_cons_of_mem pair inside)) distinct.2
      (setHeader pair.1 pair.2 false headers)
    have first := plain pair List.mem_cons_self
    constructor
    · intro other inside
      rcases List.mem_cons.mp inside with rfl | inside
      · rw [List.foldl_cons,later _ distinct.1,head_setHeader first]
        rfl
      · have apart : other.1 ≠ pair.1 := by
          intro same
          exact distinct.1 (same ▸ List.mem_map_of_mem inside)
        rw [List.foldl_cons,here other inside,valuesOf_setHeader_other apart first]
    · intro name absent
      rw [List.map_cons,List.mem_cons,not_or] at absent
      rw [List.foldl_cons,later name absent.2,valuesOf_setHeader_other absent.1 first]

theorem securityHeaders_spec (hsts docs : Bool) : (∀ pair ∈ securityHeaders hsts docs, lower pair.1 = pair.1) ∧
    ((securityHeaders hsts docs).map Prod.fst).Nodup ∧
    ∀ pair ∈ securityHeaders hsts docs, pair.1 ∉ corsNames ∧ pair.1 ≠ requestIdName := by
  cases hsts <;> cases docs <;> decide +kernel

theorem requestIdName_spec : lower requestIdName = requestIdName ∧ requestIdName ∉ corsNames := by decide

theorem valuesOf_cors (cors : Cors) (headers : List Header) {name : Text} (absent : name ∉ corsNames) :
    valuesOf (cors.apply headers) name = valuesOf headers name := by
  rw [valuesOf,valuesOf,cors.others headers name absent]

/-- The headers a response leaves with. -/
structure Shown (stack : Stack) (scope : Scope) (fresh : Nat) (headers shown : List Header) : Prop where
  id : (valuesOf shown requestIdName).head? = some (requestId scope fresh)
  security : ∀ pair ∈ securityHeaders stack.hsts (isDocs scope.path),
    (valuesOf shown pair.1).head? = some ((valuesOf headers pair.1).head?.getD pair.2)
  others : ∀ name ∉ requestIdName :: corsNames ++ (securityHeaders stack.hsts (isDocs scope.path)).map Prod.fst,
    valuesOf shown name = valuesOf headers name

theorem decorated_start (stack : Stack) (scope : Scope) (fresh status : Nat) (headers : List Header) :
    ∃ shown, decorated stack scope fresh (.start status headers) = .start status shown ∧
      Shown stack scope fresh headers shown := by
  obtain ⟨plain,distinct,apart⟩ := securityHeaders_spec stack.hsts (isDocs scope.path)
  obtain ⟨named,allowed⟩ := requestIdName_spec
  obtain ⟨set,kept⟩ := valuesOf_foldl plain distinct headers
  refine ⟨_,rfl,?_,?_,?_⟩
  · rw [head_setHeader named]
    rfl
  · intro pair inside
    obtain ⟨outside,other⟩ := apart pair inside
    rw [valuesOf_setHeader_other other named,valuesOf_cors stack.cors _ outside,set pair inside]
  · intro name absent
    simp only [List.cons_append,List.mem_cons,List.mem_append,not_or] at absent
    rw [valuesOf_setHeader_other absent.1 named,valuesOf_cors stack.cors _ absent.2.1,kept name absent.2.2]

theorem validRequestId_requestId (scope : Scope) (fresh : Nat) : validRequestId (requestId scope fresh) = true := by
  rw [requestId]
  split
  next valid => exact valid
  · have letters : ∀ c ∈ Hexadecimal.numeral 32 fresh, idCharacter c = true ∧ c ≠ '\n' := by
      intro c inside
      obtain ⟨d,small,rfl⟩ := Hexadecimal.mem_numeral inside
      have all : ∀ d : Fin 16, idCharacter (Hexadecimal.digit d) = true ∧ Hexadecimal.digit d ≠ '\n' := by decide
      exact all ⟨d,small⟩
    have ended : (Hexadecimal.numeral 32 fresh).getLast? ≠ some '\n' := by
      intro last
      exact (letters '\n' (List.mem_of_getLast? last)).2 rfl
    have every : (Hexadecimal.numeral 32 fresh).all idCharacter = true :=
      List.all_eq_true.mpr fun c inside => (letters c inside).1
    simp [validRequestId,ended,every,Hexadecimal.length_numeral]

def Request.size : Request → Nat
  | .body bytes _ => bytes.length
  | .disconnect => 0

/-- What the application is fed after the limit. -/
def Request.blank : Request → Request
  | .body _ _ => .body [] false
  | .disconnect => .disconnect

def receives (events : List Event) : List Request :=
  events.filterMap fun
    | .receive message => some message
    | .send _ => none

def sends (events : List Event) : List Response :=
  events.filterMap fun
    | .receive _ => none
    | .send message => some message

def bytesOf : List Request → Nat
  | [] => 0
  | message :: rest => message.size + bytesOf rest

/-- Nothing is left, or the next message goes over the limit. -/
def Overflows (maxBytes : Nat) (before after : List Event) : Prop :=
  after = [] ∨ ∃ message rest, after = .receive message :: rest ∧ maxBytes < bytesOf (receives before) + message.size

theorem receives_cons (event : Event) (events : List Event) :
    receives (event :: events) = receives [event] ++ receives events := by
  cases event <;> rfl

theorem sends_cons (event : Event) (events : List Event) : sends (event :: events) = sends [event] ++ sends events := by
  cases event <;> rfl

theorem bytesOf_append (first second : List Request) : bytesOf (first ++ second) = bytesOf first + bytesOf second := by
  induction first with
  | nil => exact (Nat.zero_add _).symm
  | cons message first induction =>
    rw [List.cons_append,bytesOf,bytesOf,induction,Nat.add_assoc]

/-- The events split where the limit is first passed. -/
theorem exists_split (maxBytes : Nat) (events : List Event) :
    ∃ before after, events = before ++ after ∧ bytesOf (receives before) ≤ maxBytes ∧ Overflows maxBytes before after := by
  induction events generalizing maxBytes with
  | nil => exact ⟨[],[],rfl,Nat.zero_le _,.inl rfl⟩
  | cons event events induction =>
    by_cases fits : bytesOf (receives [event]) ≤ maxBytes
    · obtain ⟨before,after,rfl,within,overflows⟩ := induction (maxBytes - bytesOf (receives [event]))
      refine ⟨event :: before,after,rfl,?_,?_⟩
      · rw [receives_cons,bytesOf_append]
        omega
      · rcases overflows with nothing | ⟨message,rest,same,exceeds⟩
        · exact .inl nothing
        · refine .inr ⟨message,rest,same,?_⟩
          rw [receives_cons,bytesOf_append]
          omega
    · cases event with
      | receive message =>
        refine ⟨[],_,rfl,Nat.zero_le _,.inr ⟨message,events,rfl,?_⟩⟩
        simp [bytesOf,receives] at fits ⊢
        exact fits
      | send message => simp [bytesOf,receives] at fits

/-- Where a connection stands while the limit is kept. -/
structure Within (stack : Stack) (scope : Scope) (fresh : Nat) (events : List Event) (c : Connection) : Prop where
  received : c.received = bytesOf (receives events)
  small : c.tooLarge = false
  silent : c.responded = false
  fed : c.fed = receives events
  sent : c.sent = (sends events).map (decorated stack scope fresh)

theorem Within.step {event : Event} (reached : Within stack scope fresh events c)
    (fits : bytesOf (receives (events ++ [event])) ≤ stack.maxBytes) :
    Within stack scope fresh (events ++ [event]) (c.step stack scope fresh event) := by
  obtain ⟨received,small,silent,fed,sent⟩ := reached
  cases event with
  | receive message =>
    have same : receives (events ++ [.receive message]) = receives events ++ [message] := List.filterMap_append
    have unsent : sends (events ++ [.receive message]) = sends events := by
      simp [sends]
    rw [same,bytesOf_append] at fits
    cases message with
    | body bytes more =>
      have total : bytesOf [.body bytes more] = bytes.length := by simp [bytesOf,Request.size]
      have passes : ¬stack.maxBytes < c.received + bytes.length := by omega
      simp only [Connection.step,Connection.limitedReceive,if_neg passes]
      exact ⟨by rw [same,bytesOf_append,received,total],small,silent,by rw [same,fed],by rw [unsent,sent]⟩
    | disconnect =>
      have total : bytesOf [.disconnect] = 0 := rfl
      exact ⟨by rw [same,bytesOf_append,total]; exact received,small,silent,by rw [same,← fed]; rfl,by rw [unsent,← sent]; rfl⟩
  | send message =>
    have unread : receives (events ++ [.send message]) = receives events := by
      simp [receives]
    have same : sends (events ++ [.send message]) = sends events ++ [message] := List.filterMap_append
    simp only [Connection.step,Connection.guardedSend,small,Bool.false_eq_true,if_false]
    refine ⟨by rw [unread]; exact received,small,silent,by rw [unread]; exact fed,?_⟩
    rw [same,List.map_append,← sent]
    rfl

theorem within_foldl (fits : bytesOf (receives before) ≤ stack.maxBytes) :
    Within stack scope fresh before (before.foldl (Connection.step stack scope fresh) opened) := by
  induction before using List.reverseRecOn with
  | nil => exact ⟨rfl,rfl,rfl,rfl,rfl⟩
  | append_singleton before event induction =>
    have less : bytesOf (receives before) ≤ stack.maxBytes := by
      rw [receives,List.filterMap_append,bytesOf_append] at fits
      exact (Nat.le_add_right _ _).trans fits
    rw [List.foldl_append]
    exact (induction less).step fits

theorem reject_eq (stack : Stack) (scope : Scope) (fresh : Nat) (c : Connection) : (c.reject stack scope fresh).sent =
      c.sent ++ rejection.map (decorated stack scope fresh) ∧
    (c.reject stack scope fresh).fed = c.fed ∧ (c.reject stack scope fresh).received = c.received ∧
      (c.reject stack scope fresh).tooLarge = c.tooLarge ∧ (c.reject stack scope fresh).responded = c.responded := by
  simp [Connection.reject,rejection,Connection.leave]

/-- Beyond the limit nothing but a blank body is fed, and the first message sent becomes the refusal. -/
theorem beyond_foldl (events : List Event) (c : Connection) (exceeds : stack.maxBytes < c.received) (large : c.tooLarge = true) :
    (events.foldl (Connection.step stack scope fresh) c).fed = c.fed ++ (receives events).map Request.blank ∧
      (events.foldl (Connection.step stack scope fresh) c).sent =
        c.sent ++ if c.responded = true ∨ sends events = [] then [] else rejection.map (decorated stack scope fresh) := by
  induction events generalizing c with
  | nil => simp [receives,sends]
  | cons event events induction =>
    rw [List.foldl_cons,receives_cons,sends_cons]
    cases event with
    | receive message =>
      cases message with
      | body bytes more =>
        have passes : stack.maxBytes < c.received + bytes.length := by omega
        obtain ⟨fed,sent⟩ := induction { c with
          received := c.received + bytes.length, tooLarge := true, fed := c.fed ++ [.body [] false] } passes rfl
        simp only [Connection.step,Connection.limitedReceive,if_pos passes]
        exact ⟨by simp [fed,receives,Request.blank],by simpa [sends] using sent⟩
      | disconnect =>
        obtain ⟨fed,sent⟩ := induction { c with fed := c.fed ++ [.disconnect] } exceeds large
        simp only [Connection.step,Connection.limitedReceive]
        exact ⟨by simp [fed,receives,Request.blank],by simpa [sends] using sent⟩
    | send message =>
      have some_sent : sends [.send message] ++ sends events ≠ [] := by simp [sends]
      by_cases answered : c.responded = true
      · obtain ⟨fed,sent⟩ := induction c exceeds large
        simp only [Connection.step,Connection.guardedSend,large,answered,if_true]
        exact ⟨by simpa [receives] using fed,by simpa [answered] using sent⟩
      · obtain ⟨out,kept,still,same,told⟩ := reject_eq stack scope fresh { c with responded := true }
        obtain ⟨fed,sent⟩ := induction _ (still ▸ exceeds) (same.trans large)
        simp only [Connection.step,Connection.guardedSend]
        rw [if_pos large,if_neg answered,if_neg (by simp [answered,some_sent]),fed,sent,kept,out,told]
        simp [receives]

/-- The status of the last response that was started. -/
def statusOf (messages : List Response) : Nat := messages.foldl (fun status message => message.status status) 500

theorem leave_logged (logged : c.statusCode = statusOf c.sent) (message : Response) :
    (c.leave stack scope fresh message).statusCode = statusOf (c.leave stack scope fresh message).sent := by
  rw [Connection.leave,statusOf,List.foldl_append,← statusOf,← logged]
  cases message <;> rfl

theorem reject_logged (logged : c.statusCode = statusOf c.sent) :
    (c.reject stack scope fresh).statusCode = statusOf (c.reject stack scope fresh).sent := by
  rw [Connection.reject,rejection,List.foldl_cons,List.foldl_cons]
  exact leave_logged (leave_logged logged _) _

theorem step_logged (logged : c.statusCode = statusOf c.sent) (event : Event) :
    (c.step stack scope fresh event).statusCode = statusOf (c.step stack scope fresh event).sent := by
  cases event with
  | receive message =>
    cases message with
    | body bytes more =>
      simp only [Connection.step,Connection.limitedReceive]
      split <;> exact logged
    | disconnect => exact logged
  | send message =>
    simp only [Connection.step,Connection.guardedSend]
    split
    · split
      · exact logged
      · exact reject_logged logged
    · exact leave_logged logged message

theorem foldl_logged (events : List Event) (logged : c.statusCode = statusOf c.sent) :
    (events.foldl (Connection.step stack scope fresh) c).statusCode =
      statusOf (events.foldl (Connection.step stack scope fresh) c).sent := by
  induction events generalizing c with
  | nil => exact logged
  | cons event events induction => exact induction (step_logged logged event)

theorem bytesOf_blank (messages : List Request) : bytesOf (messages.map Request.blank) = 0 := by
  induction messages with
  | nil => rfl
  | cons message messages induction =>
    rw [List.map_cons,bytesOf,induction]
    cases message <;> rfl

/-- What a request that was not turned away leads to. -/
structure Limited (stack : Stack) (scope : Scope) (fresh : Nat) (before after : List Event) (c : Connection) : Prop where
  within : bytesOf (receives before) ≤ stack.maxBytes
  overflows : Overflows stack.maxBytes before after
  fed : c.fed = receives before ++ (receives after).map Request.blank
  sent : c.sent = (sends before).map (decorated stack scope fresh) ++
    if sends after = [] then [] else rejection.map (decorated stack scope fresh)

theorem limited_foldl (within : bytesOf (receives before) ≤ stack.maxBytes) (overflows : Overflows stack.maxBytes before after) :
    Limited stack scope fresh before after ((before ++ after).foldl (Connection.step stack scope fresh) opened) := by
  have reached : Within stack scope fresh before _ := within_foldl within
  rw [List.foldl_append]
  generalize before.foldl (Connection.step stack scope fresh) opened = c at reached
  rcases overflows with rfl | ⟨message,rest,rfl,exceeds⟩
  · exact ⟨within,.inl rfl,by simpa [receives] using reached.fed,by simpa [sends] using reached.sent⟩
  · cases message with
    | disconnect => exact absurd within (Nat.not_le.mpr exceeds)
    | body bytes more =>
      have passes : stack.maxBytes < c.received + bytes.length := by rw [reached.received]; exact exceeds
      obtain ⟨fed,sent⟩ := beyond_foldl rest { c with
        received := c.received + bytes.length, tooLarge := true, fed := c.fed ++ [.body [] false] } passes rfl
      have first : c.step stack scope fresh (.receive (.body bytes more)) = { c with
          received := c.received + bytes.length, tooLarge := true, fed := c.fed ++ [.body [] false] } := by
        simp only [Connection.step,Connection.limitedReceive,if_pos passes]
      refine ⟨within,.inr ⟨_,rest,rfl,exceeds⟩,?_,?_⟩
      · rw [List.foldl_cons,first,fed,reached.fed,receives_cons (.receive _)]
        simp [receives,Request.blank]
      · rw [List.foldl_cons,first,sent,reached.sent,sends_cons (.receive _)]
        simp [reached.silent,sends]

theorem Limited.bytes (limited : Limited stack scope fresh before after c) : bytesOf c.fed ≤ stack.maxBytes := by
  rw [limited.fed,bytesOf_append,bytesOf_blank]
  exact limited.within

/-- A request over the declared limit is refused unseen. Any other, in whatever order it is received and answered, is fed
to the application up to the limit; what is sent until then leaves as it was decorated, and after it one refusal at most.
-/
theorem request_limited (stack : Stack) (scope : Scope) (fresh : Nat) (events : List Event) (c : Connection)
    (served : serve stack scope fresh events = .ok c) :
    (∀ n, declaredLength scope = .ok (some n) → stack.maxBytes < n →
      c.fed = [] ∧ c.sent = rejection.map (decorated stack scope fresh)) ∧
    ((∀ n, declaredLength scope = .ok (some n) → n ≤ stack.maxBytes) →
      ∃ before after, events = before ++ after ∧ Limited stack scope fresh before after c) ∧
    bytesOf c.fed ≤ stack.maxBytes ∧
    accessLog scope c = (scope.method,scope.path,statusOf c.sent) ∧
    validRequestId (requestId scope fresh) = true ∧
    ∀ status headers, ∃ shown, decorated stack scope fresh (.start status headers) = .start status shown ∧
      Shown stack scope fresh headers shown := by
  have logged : opened.statusCode = statusOf opened.sent := rfl
  cases declared : declaredLength scope with
  | error refusal => simp [serve,declared,bind,Except.bind] at served
  | ok length =>
    have called : c = if length.any (stack.maxBytes < ·) then opened.reject stack scope fresh
        else events.foldl (Connection.step stack scope fresh) opened := by
      simp only [serve,declared,bind,Except.bind] at served
      split at served <;> simp_all [pure,Except.pure]
    obtain ⟨out,kept,_⟩ := reject_eq stack scope fresh opened
    by_cases exceeds : length.any (stack.maxBytes < ·) = true
    · rw [if_pos exceeds] at called
      subst called
      obtain ⟨n,rfl⟩ : ∃ n, length = some n := Option.isSome_iff_exists.mp (by cases length <;> simp_all)
      have large : stack.maxBytes < n := by simpa using exceeds
      refine ⟨fun _ _ _ => ⟨kept,out⟩,?_,?_,?_,validRequestId_requestId scope fresh,decorated_start stack scope fresh⟩
      · intro small
        exact absurd large (Nat.not_lt.mpr (small n rfl))
      · rw [kept]
        exact Nat.zero_le _
      · rw [accessLog,reject_logged logged]
    · rw [if_neg exceeds] at called
      subst called
      obtain ⟨before,after,rfl,within,overflows⟩ := exists_split stack.maxBytes events
      have limited : Limited stack scope fresh before after _ := limited_foldl within overflows
      refine ⟨?_,fun _ => ⟨before,after,rfl,limited⟩,limited.bytes,?_,validRequestId_requestId scope fresh,
        decorated_start stack scope fresh⟩
      · intro n same large
        cases same
        exact absurd (decide_eq_true large) exceeds
      · rw [accessLog,foldl_logged _ logged]

def plainCors : Cors := ⟨id,fun _ _ _ => rfl⟩

/-- Two bytes are fed, the next two pass the limit of three, and the answer is a refusal. -/
theorem request_limited_sample : ∃ c, serve ⟨3,true,plainCors⟩ ⟨"POST".toList,"/sales".toList,[]⟩ 7
      [.receive (.body [1,2] true),.receive (.body [3,4] true),.send (.start 200 [])] = .ok c ∧ bytesOf c.fed ≤ 3 := by
  refine ⟨_,rfl,?_⟩
  exact (request_limited ⟨3,true,plainCors⟩ ⟨"POST".toList,"/sales".toList,[]⟩ 7
    [.receive (.body [1,2] true),.receive (.body [3,4] true),.send (.start 200 [])] _ rfl).2.2.1

end Middleware
