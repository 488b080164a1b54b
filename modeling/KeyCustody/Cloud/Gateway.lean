import KeyCustody.Cloud.ObjectStore

namespace KeyCustody.Cloud

/-! # Calls as requests

A program that calls the provider becomes one that sends requests, call by call. What it
asks of its host stays as it is. -/

open Service (Call)

def answerCall (account : Account) : (call : Call) → Wire (Except Error call.Reply)
  | .tagPage query => KeyService.ask account (KeyService.tagPage query) Service.TagPage.reader
  | .listKeys spec => KeyService.ask account (KeyService.listKeys spec) Service.keyListingReader
  | .setRotation switch keyId token =>
      KeyService.tell account (KeyService.setRotation switch keyId token)
  | .setKey switch keyId token =>
      KeyService.ask account (KeyService.setKey switch keyId token) Service.keyStatusReader
  | .createKey name =>
      KeyService.ask account (KeyService.createKey name) Service.createdKeyReader
  | .listAliases =>
      KeyService.ask account KeyService.listAliases Service.AliasListing.reader
  | .createAlias keyId name => KeyService.tell account (KeyService.createAlias keyId name)
  | .getObject location => ObjectStore.fetch account location

def answerQuestion (account : Account) : (question : Question) → Wire question.Reply
  | .call call => answerCall account call
  | .host request => Wire.host request

/-- The program in requests under an account. -/
def connect (account : Account) (program : Custody α) : Wire α :=
  program.translate (answerQuestion account)

end KeyCustody.Cloud
