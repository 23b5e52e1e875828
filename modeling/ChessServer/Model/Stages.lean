import ChessServer.Model.Acts

/-!
# Stages of a session

A session goes from one state object to the next in a fixed order, and from
its login on it has the account of the row that let it in.
-/

namespace ChessServer

/-- The state object that follows another. -/
def StateType.successor : StateType → StateType
  | .auth => .downAd
  | .downAd => .gameReady
  | .gameReady => .gamePlay
  | .gamePlay => .gameReady

/-- The type of the state object that the next message goes to; the first
message creates one. -/
def UserSession.state (s : UserSession) : StateType :=
  s.stateMachine.getD .auth

/-- What a login, the switches of the state object and the end of a
connection change. -/
structure Stage where
  clifd : Int
  stateMachine : Option StateType
  nextState : Option StateType
  account : Bytes

def UserSession.stage (s : UserSession) : Stage :=
  ⟨s.clifd, s.stateMachine, s.nextState, s.userInfo.account⟩

/-- The stage of a session. -/
def World.stage (w : World) (v : SessionId) : Option Stage :=
  (w.users v).map UserSession.stage

/-- The state object that gets the messages of a session, and its account. -/
def Stage.badge (p : Stage) : StateType × Bytes :=
  (p.stateMachine.getD .auth, p.account)

/-- What the server holds a session for. -/
def World.badge (w : World) (v : SessionId) : Option (StateType × Bytes) :=
  (w.stage v).map Stage.badge

/-! ## Logins -/

/-- The row that `GetUsersInfoFromDB` would leave in the session: the last one
that the database returns. -/
def World.userRow (env : Env) (account : Bytes) (w : World) : Option UserRow :=
  if account = [] then none
  else
    match (w.query env (snprintf 254
      (lit "SELECT * FROM users_info WHERE account='" ++ cString account ++
        lit "'"))).1 with
    | .users rows => rows.getLast?
    | _ => none

/-- What lets a login in: nobody is known to use the account that was sent,
and the row that the database returns has the password that was sent. -/
structure World.Admits (env : Env) (login : LogOnorOut) (row : UserRow)
    (w : World) : Prop where
  free : getIndividualUser login.account w = some true
  found : w.userRow env login.account = some row
  password : row.password = login.password

/-- The login that an event brings to a session in the first state. -/
def World.loginOf (env : Env) (w : World) (e : Event) :
    Option (SessionId × LogOnorOut) :=
  match e with
  | .read u data =>
      match w.received u data, w.users u with
      | .message msgType msg, some s =>
          if s.state = .auth ∧ MessageType.ofCode msgType = some .login then
            (env.proto.logOnorOut msg).map fun login => (u, login)
          else none
      | _, _ => none
  | _ => none

/-- The row that lets a login in bears the name that was sent, or a name that
nobody uses. -/
def World.spelled (env : Env) (w : World) (e : Event) : Bool :=
  match w.loginOf env e with
  | none => true
  | some (_, login) =>
      match w.userRow env login.account with
      | none => true
      | some row =>
          row.password != login.password || row.account == login.account ||
            row.account == [] ||
            getIndividualUser row.account w == some true

/-- The row that lets a login in bears a name that nobody uses. -/
def World.unclaimed (env : Env) (w : World) (e : Event) : Bool :=
  match w.loginOf env e with
  | none => true
  | some (_, login) =>
      match w.userRow env login.account with
      | none => true
      | some row =>
          getIndividualUser login.account w != some true ||
            row.password != login.password || row.account == [] ||
            getIndividualUser row.account w == some true

/-- What an event does to a session whose connection stays open. -/
inductive World.Passes (env : Env) (w : World) (e : Event) (v : SessionId) :
    StateType × Bytes → StateType × Bytes → Prop where
  | stay (p : StateType × Bytes) : Passes env w e v p p
  | switch {state : StateType} {account : Bytes} (hstate : state ≠ .auth) :
      Passes env w e v (state, account) (state.successor, account)
  | refused {account : Bytes} : Passes env w e v (.auth, account) (.auth, [])
  | login {account : Bytes} {login : LogOnorOut} {row : UserRow}
      (hlogin : w.loginOf env e = some (v, login))
      (hadmits : w.Admits env login row) :
      Passes env w e v (.auth, account) (.downAd, row.account)

end ChessServer
