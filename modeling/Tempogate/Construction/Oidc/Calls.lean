/-
This file lists the store methods and the outside calls that the handlers use.
-/

import Tempogate.Construction.Oidc.Types
import Tempogate.Foundation.Program

namespace Tempogate.Oidc

open Foundation

/-- These are the calls whose answers the handlers do not determine. -/
inductive EnvironmentCall
  | now
  | randomFamilyID
  | newRefresh
  | resolve (email : String)
  | mint (request : MintRequest)
  | mintIDToken (request : IDTokenRequest)
  deriving DecidableEq

def EnvironmentCall.Answer : EnvironmentCall → Type
  | .now => Time
  | .randomFamilyID | .newRefresh => Except String String
  | .resolve _ => Except String (Option Perms.Grant)
  | .mint _ => Except String (String × String)
  | .mintIDToken _ => Except String String

def environment : Signature := ⟨EnvironmentCall, EnvironmentCall.Answer⟩

/-- These are the store methods on refresh tokens. -/
inductive RefreshCall
  | saveRefresh (refresh : Refresh)
  | consumeRefresh (token clientID : String) (moment : Time)
  | revokeRefreshFamily (familyID : String) (moment : Time)
  | revokeRefreshByEmail (email : String) (moment : Time)
  | revokeRefreshBySubject (connectorID subject : String) (moment : Time)
  deriving DecidableEq

def RefreshCall.Answer : RefreshCall → Type
  | .saveRefresh _ => Except StoreError Unit
  | .consumeRefresh _ _ _ => Except StoreError Refresh
  | .revokeRefreshFamily _ _ => Except StoreError Nat
  | .revokeRefreshByEmail _ _ => Except StoreError Nat
  | .revokeRefreshBySubject _ _ _ => Except StoreError Nat

/-- A client of the store has received the answer to its call. -/
structure Returned where
  call : RefreshCall
  answer : call.Answer

/-- These are the store methods on authorization codes. -/
inductive AuthCodeCall
  | saveAuthCode (authCode : AuthCode)
  | consumeAuthCode (code familyID : String) (moment : Time)
  deriving DecidableEq

def AuthCodeCall.Answer : AuthCodeCall → Type
  | .saveAuthCode _ => Except StoreError Unit
  | .consumeAuthCode _ _ _ => Except StoreError AuthCode

/-- These are the store methods on pending authorization requests. -/
inductive AuthRequestCall
  | saveAuthRequest (authRequest : AuthRequest)
  | consumeAuthRequest (internalState : String)
  deriving DecidableEq

def AuthRequestCall.Answer : AuthRequestCall → Type
  | .saveAuthRequest _ => Except StoreError Unit
  | .consumeAuthRequest _ => Except StoreError AuthRequest

/-- These are the store methods that the device grant calls. -/
inductive DeviceCodeCall
  | lookupDeviceCodeByDeviceCode (deviceCode : String)
  | pollDeviceCode (deviceCode : String) (now : Time)
  | consumeDeviceCode (deviceCode : String)
  deriving DecidableEq

def DeviceCodeCall.Answer : DeviceCodeCall → Type
  | .lookupDeviceCodeByDeviceCode _ => Except StoreError DeviceCode
  | .pollDeviceCode _ _ => Except StoreError Bool
  | .consumeDeviceCode _ => Except StoreError DeviceCode

inductive StoreCall
  | refresh (call : RefreshCall)
  | authCode (call : AuthCodeCall)
  | authRequest (call : AuthRequestCall)
  | deviceCode (call : DeviceCodeCall)
  deriving DecidableEq

def StoreCall.Answer : StoreCall → Type
  | .refresh call => call.Answer
  | .authCode call => call.Answer
  | .authRequest call => call.Answer
  | .deviceCode call => call.Answer

def storeCalls : Signature := ⟨StoreCall, StoreCall.Answer⟩

def calls : Signature := environment.sum storeCalls

/-- A handler runs over the store methods and the outside calls. -/
abbrev Handler (Result : Type) : Type := Program calls Result

def outside (call : EnvironmentCall) : Handler call.Answer := @Program.call calls (.inl call)

def method (call : StoreCall) : Handler call.Answer := @Program.call calls (.inr call)

def now : Handler Time := outside .now

def randomFamilyID : Handler (Except String String) := outside .randomFamilyID

def newRefresh : Handler (Except String String) := outside .newRefresh

def resolve (email : String) : Handler (Except String (Option Perms.Grant)) :=
  outside (.resolve email)

def mint (request : MintRequest) : Handler (Except String (String × String)) :=
  outside (.mint request)

def mintIDToken (request : IDTokenRequest) : Handler (Except String String) :=
  outside (.mintIDToken request)

def saveRefresh (refresh : Refresh) : Handler (Except StoreError Unit) :=
  method (.refresh (.saveRefresh refresh))

def consumeRefresh (token clientID : String) (moment : Time) :
    Handler (Except StoreError Refresh) :=
  method (.refresh (.consumeRefresh token clientID moment))

def revokeRefreshFamily (familyID : String) (moment : Time) : Handler (Except StoreError Nat) :=
  method (.refresh (.revokeRefreshFamily familyID moment))

def consumeAuthCode (code familyID : String) (moment : Time) :
    Handler (Except StoreError AuthCode) :=
  method (.authCode (.consumeAuthCode code familyID moment))

variable (deviceCode : String)

def lookupDeviceCodeByDeviceCode : Handler (Except StoreError DeviceCode) :=
  method (.deviceCode (.lookupDeviceCodeByDeviceCode deviceCode))

def pollDeviceCode (moment : Time) : Handler (Except StoreError Bool) :=
  method (.deviceCode (.pollDeviceCode deviceCode moment))

def consumeDeviceCode : Handler (Except StoreError DeviceCode) :=
  method (.deviceCode (.consumeDeviceCode deviceCode))

end Tempogate.Oidc
