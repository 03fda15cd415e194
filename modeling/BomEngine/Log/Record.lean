import BomEngine.Failure

/-!
# Log records

A record has a level, the name of the part of the engine that wrote it, a
message, and context under names of its own.
-/

set_option autoImplicit false

namespace BomEngine

structure LogRecord where
  level : Int
  logger : String
  message : String
  context : List (String × Json)

namespace LogRecord

def debug (logger message : String) (context : List (String × Json)) : LogRecord :=
  ⟨10, logger, message, context⟩

def info (logger message : String) (context : List (String × Json)) : LogRecord :=
  ⟨20, logger, message, context⟩

def warning (logger message : String) (context : List (String × Json)) : LogRecord :=
  ⟨30, logger, message, context⟩

def error (logger message : String) (context : List (String × Json)) : LogRecord :=
  ⟨40, logger, message, context⟩

end LogRecord

/-- A result together with the log records written on the way to it. They are
there also when the result is a failure. -/
structure Noted (α : Type) where
  records : List LogRecord
  result : Result α

namespace Noted

variable {α β : Type}

def bind (x : Noted α) (f : α → Noted β) : Noted β :=
  match x.result with
  | .ok a => ⟨x.records ++ (f a).records, (f a).result⟩
  | .error e => ⟨x.records, .error e⟩

instance : Monad Noted where
  pure a := ⟨[], .ok a⟩
  bind := bind

instance : MonadExceptOf Failure Noted where
  throw e := ⟨[], .error e⟩
  tryCatch x handle :=
    match x.result with
    | .ok _ => x
    | .error e => ⟨x.records ++ (handle e).records, (handle e).result⟩

def ofResult (r : Result α) : Noted α := ⟨[], r⟩

instance : MonadLift Result Noted := ⟨ofResult⟩

def note (record : LogRecord) : Noted Unit := ⟨[record], .ok ()⟩

theorem bind_assoc {γ : Type} (x : Noted α) (f : α → Noted β) (g : β → Noted γ) :
    bind (bind x f) g = bind x fun a => bind (f a) g := by
  obtain ⟨records, r⟩ := x
  cases r with
  | error e => rfl
  | ok a => cases h : (f a).result <;> simp [bind, h]

instance : LawfulMonad Noted :=
  .mk' Noted
    (fun x => by
      show bind x _ = x
      obtain ⟨records, r⟩ := x
      cases r with
      | error e => rfl
      | ok a => exact congrArg (Noted.mk · (.ok a)) (List.append_nil records))
    (fun _ _ => rfl) bind_assoc

@[simp] theorem result_pure (a : α) : (pure a : Noted α).result = .ok a := rfl

@[simp] theorem result_bind (x : Noted α) (f : α → Noted β) :
    (x >>= f).result = x.result >>= fun a => (f a).result := by
  show (bind x f).result = _
  unfold bind
  cases h : x.result <;> rfl

@[simp] theorem result_ofResult (r : Result α) : (ofResult r).result = r := rfl

@[simp] theorem result_note (record : LogRecord) : (note record).result = .ok () := rfl

theorem result_mapM (f : α → Noted β) (as : List α) :
    (as.mapM f).result = as.mapM fun a => (f a).result := by
  induction as with
  | nil => rfl
  | cons a as ih => simp only [List.mapM_cons, result_bind, ih, result_pure]; rfl

end Noted
end BomEngine
