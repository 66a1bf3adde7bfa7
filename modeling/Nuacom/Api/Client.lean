import Nuacom.Api.Md5
import Nuacom.Support.Rapidjson

set_option relaxedAutoImplicit false
set_option autoImplicit false

/-!
# The HTTP client of the service

The functions of the API build one request each, perform it, and read the response. What curl
answers to a request is an `Exchange`; a `Network` gives one for every request, so a statement
about every network is a statement about every result code and every response body.

## Main definitions

* `Nuacom.Request`, `Nuacom.Exchange`, `Nuacom.Network` — requests and their outcomes.
* `Nuacom.getSessionTokenRequest`, `makeCallRequest`, `getExtensionRequest`,
  `endCallRequest` — the request of each function.
* `Nuacom.stringResponse` — how `GetSessionToken` and `MakeCall` read a response.
* `Nuacom.getSessionToken`, `makeCall`, `getExtension`, `endCall` — the functions.

## Implementation notes

`GetSessionToken` and `MakeCall` read their responses with the same code around a different
member name, so both are `stringResponse` at their own name. The result is the assertion that
failed, or the return value with the content of the output string; an assertion that fails ends
the service.
-/

namespace Nuacom

open CString Rapidjson

/-! ## Requests and their outcomes -/

/-- The options of one request. -/
structure Request where
  /-- `CURLOPT_URL` -/
  url : Bytes
  /-- `CURLOPT_CUSTOMREQUEST` -/
  customRequest : Option Bytes
  /-- `CURLOPT_HTTPHEADER` -/
  headers : List Bytes
  /-- `CURLOPT_POSTFIELDS` -/
  postFields : Option Bytes
  deriving DecidableEq, Repr

/-- `CURLE_OK` -/
def curleOk : UInt32 := 0

/-- What `curl_easy_perform` leaves behind. -/
structure Exchange where
  /-- The `CURLcode` returned. -/
  ret : UInt32
  /-- The pieces of the body, one for each call of the write function. -/
  chunks : List Bytes
  /-- The text in the error buffer. -/
  errMsgBuf : Bytes

/-- `write_data`: append a piece of the body to the result. -/
def writeData (result ptr : Bytes) : Bytes := result ++ ptr

/-- The body received. -/
def Exchange.result (ex : Exchange) : Bytes := ex.chunks.foldl writeData []

/-- The body received is the pieces one after another. -/
theorem Exchange.result_eq (ex : Exchange) : ex.result = ex.chunks.flatten := by
  have h : ∀ (acc : Bytes) (cs : List Bytes), cs.foldl writeData acc = acc ++ cs.flatten := by
    intro acc cs
    induction cs generalizing acc with
    | nil => simp
    | cons c cs ih => simp [ih, writeData]
  simpa [Exchange.result] using h [] ex.chunks

/-- What the network answers to each request. -/
abbrev Network := Request → Exchange

/-! ## The requests -/

/-- The header that carries the session token. -/
def securityHeader (sessionToken : Bytes) : Bytes :=
  cStr (bytes "Client-Security-Token: " ++ sessionToken)

/-- `baseurl` of `GetSessionToken`. -/
def loginBaseUrl : Bytes := bytes "https://api.nuacom.ie/login?"

/-- `fullurl` of `GetSessionToken`. -/
def getSessionTokenUrl (name pass : Bytes) : Bytes :=
  loginBaseUrl ++ (bytes "email=" ++ name ++ bytes "&pass=" ++ md5 (cStr pass))

/-- The request of `GetSessionToken`. -/
def getSessionTokenRequest (name pass : Bytes) : Request where
  url := cStr (getSessionTokenUrl name pass)
  customRequest := none
  headers := [bytes "Cache-Control: no-cache", bytes "Content-Type: application/json"]
  postFields := none

/-- The JSON text that `MakeCall` posts. -/
def makeCallPayload (srcNumber dstNumber : Bytes) : Bytes :=
  writeObject [(bytes "action", bytes "call"), (bytes "call_from_number", cStr srcNumber),
    (bytes "call_to_number", cStr dstNumber)]

/-- The request of `MakeCall`. -/
def makeCallRequest (sessionToken srcNumber dstNumber : Bytes) : Request where
  url := bytes "https://api.nuacom.ie/v1/call_back"
  customRequest := some (bytes "POST")
  headers := [bytes "Cache-Control: no-cache", bytes "Content-Type: application/json",
    securityHeader sessionToken]
  postFields := some (makeCallPayload srcNumber dstNumber)

/-- The request of `GetExtension`. -/
def getExtensionRequest (sessionToken : Bytes) : Request where
  url := bytes "https://api.nuacom.ie/v1/user_info"
  customRequest := some (bytes "GET")
  headers := [bytes "Cache-Control: no-cache", bytes "Content-Type: application/json",
    securityHeader sessionToken]
  postFields := none

/-- The part of the URL of `EndCall` that does not depend on the channel. -/
def terminateBaseUrl : Bytes := bytes "https://call-events.nuacom.ie/call/terminate/SIP/"

/-- `url` of `EndCall`. -/
def endCallUrl (channelId : Bytes) : Bytes := terminateBaseUrl ++ channelId

/-- The request of `EndCall`. -/
def endCallRequest (sessionToken channelId : Bytes) : Request where
  url := cStr (endCallUrl channelId)
  customRequest := none
  headers := [bytes "Cache-Control: no-cache", securityHeader sessionToken]
  postFields := none

/-! ## Reading the responses -/

/-- What a function of the API returns: its return value, and the output string. -/
abbrev Reply := Bool × Bytes

/-- The document of a response: an empty object, over which the body is parsed as a C string. -/
def document (p : Parser) (ex : Exchange) : Value := parse p (.object []) (cStr ex.result)

/-- Read a response whose member `key` is to be a string. -/
def stringResponse (p : Parser) (key : Bytes) (ex : Exchange) : Except Assertion Reply :=
  if ex.ret = curleOk then do
    let d := document p ex
    if ← d.hasMember key then
      if (← d.member key).isString then
        return (true, cStr (← (← d.member key).getString))
      else return (false, ex.result)
    else return (false, cStr ex.errMsgBuf)
  else return (false, ex.result)

/-- `nuacom::GetSessionToken`; the output string is `session_token`. -/
def getSessionToken (p : Parser) (http : Network) (name pass : Bytes) :
    Except Assertion Reply :=
  stringResponse p (bytes "session_token") (http (getSessionTokenRequest name pass))

/-- `nuacom::MakeCall`; the output string is `status_message`. -/
def makeCall (p : Parser) (http : Network) (sessionToken srcNumber dstNumber : Bytes) :
    Except Assertion Reply :=
  stringResponse p (bytes "status") (http (makeCallRequest sessionToken srcNumber dstNumber))

/-- `_ltoa` in base 10. -/
def ltoa (i : ℤ) : Bytes := bytes (toString i)

/-- How `GetExtension` reads its response: the member `key` is to be a 32-bit integer. -/
def extensionResponse (p : Parser) (key : Bytes) (ex : Exchange) (extension : Bytes) :
    Except Assertion Reply :=
  if ex.ret = curleOk then do
    let d := document p ex
    if ← d.hasMember key then
      if (← d.member key).isInt then
        return (true, ltoa (← (← d.member key).getInt))
      else return (false, extension)
    else return (false, extension)
  else return (false, extension)

/-- `nuacom::GetExtension`; the output string is `Extension`, which a failing call leaves as
it was. -/
def getExtension (p : Parser) (http : Network) (sessionToken extension : Bytes) :
    Except Assertion Reply :=
  extensionResponse p (bytes "user_extension") (http (getExtensionRequest sessionToken)) extension

/-- `nuacom::EndCall`; the output string is `status_message`. -/
def endCall (http : Network) (sessionToken channelId : Bytes) : Reply :=
  let ex := http (endCallRequest sessionToken channelId)
  if ex.ret = curleOk then (true, ex.result) else (false, cStr ex.errMsgBuf)

end Nuacom
